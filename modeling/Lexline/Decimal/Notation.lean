import Lexline.Decimal.Shortest

/-!
# Floating-point text

The text of a binary64 value: its shortest decimal, positional for moderate powers of ten and
with an exponent otherwise.

* `Binary64.positional`, `Binary64.scientific` — the two notations of a digit run.
* `Binary64.text` — the text of a value.
-/

namespace Lexline.Binary64

/-- Powers of ten of the first digit from this one on are written positionally. -/
def firstPositional : Int := -4

/-- Powers of ten of the first digit from this one on are written with an exponent. -/
def firstScientific : Int := 16

/-- A digit run with the first digit at a power of ten, written with a point. -/
def positional (run : List Char) (top : Int) : List Char :=
  if top < 0 then '0' :: '.' :: (List.replicate (-top - 1).toNat '0' ++ run)
  else
    let whole := top.toNat + 1
    let fraction := run.drop whole
    run.take whole ++ List.replicate (whole - run.length) '0' ++ '.' ::
      (if fraction = [] then ['0'] else fraction)

/-- A digit run with the first digit at a power of ten, written with an exponent of at least two
digits and always a sign. -/
def scientific (run : List Char) (top : Int) : List Char :=
  let fraction := run.drop 1
  run.take 1 ++ (if fraction = [] then [] else '.' :: fraction) ++ 'e' ::
    (if top < 0 then '-' else '+') :: Text.padded 2 top.natAbs

/-- The text of a positive value. -/
def magnitudeText (significand : Nat) (power : Int) : List Char :=
  let (digits, exponent) := Shortest.decimal significand power
  let all := Text.digits digits
  let run := (all.reverse.dropWhile (· == '0')).reverse
  let top := exponent + all.length - 1
  if firstPositional ≤ top ∧ top < firstScientific then positional run top else scientific run top

/-- The text of a value. -/
def text : Binary64 → String
  | nan => "nan"
  | infinite negative => if negative then "-inf" else "inf"
  | finite negative significand power =>
    let body := if significand = 0 then ['0', '.', '0'] else magnitudeText significand power
    String.ofList (if negative then '-' :: body else body)

end Lexline.Binary64
