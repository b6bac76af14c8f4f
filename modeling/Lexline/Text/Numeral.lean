/-!
# Numerals

* `numeral` — an integer in decimal, with a minus sign if it is negative, and `decimalValue` the
  number that a run of digits denotes.
* `padded` — a natural number in decimal, with zeros in front up to a width.
* `hex` — the last `width` hexadecimal digits of a number, in small letters, the most significant
  one first.
* `hexValue?`, `hexNumber?` — the value of a hexadecimal digit in either case, and the number that a
  run of them denotes.
-/

namespace Lexline.Text

/-! ## Decimal -/

/-- The decimal digits of a natural number. -/
def digits (n : Nat) : List Char := Nat.toDigits 10 n

/-- The digits of a natural number are the ten decimal ones. -/
theorem toNat_of_mem_digits {n : Nat} {c : Char} (h : c ∈ digits n) :
    48 ≤ c.toNat ∧ c.toNat ≤ 57 :=
  Char.isDigit_iff_toNat.1 (Nat.isDigit_of_mem_toDigits (by decide) (by decide) h)

/-- An integer in decimal. -/
def numeral : Int → List Char
  | .ofNat n => digits n
  | .negSucc n => '-' :: digits (n + 1)

/-- A natural number in decimal, at least `width` characters wide. -/
def padded (width n : Nat) : List Char :=
  List.replicate (width - (digits n).length) '0' ++ digits n

/-- The decimal numeral of an integer, as a string. -/
def numeralString (n : Int) : String := String.ofList (numeral n)

/-- The number that a run of ASCII digits denotes. -/
def decimalValue (run : List Char) : Nat := run.foldl (fun n c => 10 * n + (c.toNat - 48)) 0

/-! ## Hexadecimal -/

/-- The lower-case digit of a value below sixteen. -/
def hexDigit (n : Nat) : Char :=
  if n < 10 then Char.ofNat (48 + n) else Char.ofNat (87 + n)

/-- The last `width` hexadecimal digits of a number. -/
def hex : Nat → Nat → List Char
  | 0, _ => []
  | width + 1, n => hex width (n / 16) ++ [hexDigit (n % 16)]

/-- The value of a hexadecimal digit; letters count in either case. -/
def hexValue? (c : Char) : Option Nat :=
  if '0' ≤ c ∧ c ≤ '9' then some (c.toNat - 48)
  else if 'a' ≤ c ∧ c ≤ 'f' then some (c.toNat - 87)
  else if 'A' ≤ c ∧ c ≤ 'F' then some (c.toNat - 55)
  else none

/-- The number that a run of hexadecimal digits denotes, or nothing if some character is not
a digit. -/
def hexNumber? (digits : List Char) : Option Nat :=
  digits.foldl
    (fun total c => match total, hexValue? c with
      | some n, some d => some (16 * n + d)
      | _, _ => none)
    (some 0)

theorem hex_length (width n : Nat) : (hex width n).length = width := by
  induction width generalizing n with
  | zero => rfl
  | succ width ih => simp [hex, ih]

end Lexline.Text
