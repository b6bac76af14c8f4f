import Lexline.Text.Numeral

/-!
# Binary floating point

A binary64 number as its exact value, a significand times a power of two.

* `Binary64` — a number, an infinity, or no number.
* `Binary64.ofDecimal` — the nearest number to a decimal; halfway between two, the one whose
  significand is even.
-/

namespace Lexline

/-- A binary64 value.  A finite one is `significand * 2 ^ power`, with a significand below 2^53
that fills 53 bits unless the power is the least one. -/
inductive Binary64 where
  | nan
  | infinite (negative : Bool)
  | finite (negative : Bool) (significand : Nat) (power : Int)
  deriving DecidableEq, Repr

namespace Binary64

/-- The least power of two of a finite value. -/
def leastPower : Int := -1074

/-- The greatest power of two of a finite value. -/
def greatestPower : Int := 971

/-- The value zero. -/
def zero (negative : Bool) : Binary64 := finite negative 0 leastPower

/-- `num / den * b ^ e` as a quotient of natural numbers. -/
def scale (base num den : Nat) (e : Int) : Nat × Nat :=
  if 0 ≤ e then (num * Nat.pow base e.toNat, den) else (num, den * Nat.pow base (-e).toNat)

/-- The nearest natural number to a quotient; halfway between two, the even one. -/
def roundQuotient (num den : Nat) : Nat :=
  let q := num / den
  let twice := 2 * (num % den)
  if twice < den ∨ (twice = den ∧ q % 2 = 0) then q else q + 1

/-- A significand and a power as a value: one that has grown to 54 bits is halved, and a power
above the greatest one gives an infinity. -/
def ofScaled (negative : Bool) (significand : Nat) (power : Int) : Binary64 :=
  let (s, p) :=
    if significand = Nat.pow 2 53 then (Nat.pow 2 52, power + 1) else (significand, power)
  if greatestPower < p then infinite negative else finite negative s p

/-- The nearest value to a positive quotient. -/
def ofQuotient (negative : Bool) (num den : Nat) : Binary64 :=
  let low := max ((Nat.log2 num : Int) - (Nat.log2 den : Int) - 53) leastPower
  let quotient (p : Int) := scale 2 num den (-p)
  let (n, d) := quotient low
  let power := if Nat.pow 2 53 ≤ n / d then low + 1 else low
  let (n, d) := quotient power
  ofScaled negative (roundQuotient n d) power

/-- The nearest value to `digits * 10 ^ exponent`.  Decimals far outside the range of finite
values are settled by their size alone. -/
def ofDecimal (negative : Bool) (digits : Nat) (exponent : Int) : Binary64 :=
  let size := exponent + (Text.digits digits).length
  if digits = 0 ∨ size < -330 then zero negative
  else if 310 < size then infinite negative
  else
    let (num, den) := scale 10 digits 1 exponent
    ofQuotient negative num den

end Binary64

end Lexline
