import Lexline.Decimal.Binary64

/-!
# The shortest decimal

Among the decimals that round to a given binary64 value, the one with the fewest digits, and of
those the nearest.

* `Shortest.Reach` — the decimals that round to a value, on a decimal grid.
* `Shortest.onGrid?` — the grid point that stands for the value, if one rounds to it.
* `Shortest.decimal` — the fewest digits, with their power of ten.
-/

namespace Lexline.Shortest

/-- A value and the ends of the interval that rounds to it, in units of a common fraction of a
grid step; `closed` says whether the ends themselves round to the value. -/
structure Reach where
  low : Nat
  value : Nat
  high : Nat
  step : Nat
  closed : Bool
  deriving DecidableEq, Repr

/-- The reach of `significand * 2 ^ power` on the grid of the multiples of `10 ^ exponent`.  The
gap below a value is half as wide where the power changes. -/
def reach (significand : Nat) (power exponent : Int) : Reach :=
  let below := if significand = Nat.pow 2 52 ∧ Binary64.leastPower < power then 1 else 2
  let (num, den) := Binary64.scale 2 1 1 (power - 2)
  let (stepNum, stepDen) := Binary64.scale 10 1 1 exponent
  let unit := num * stepDen
  ⟨(4 * significand - below) * unit, 4 * significand * unit, (4 * significand + 2) * unit,
   stepNum * den, significand % 2 == 0⟩

/-- Whether a grid point rounds to the value. -/
def Reach.holds (r : Reach) (point : Nat) : Bool :=
  if r.closed then r.low ≤ point * r.step && point * r.step ≤ r.high
  else r.low < point * r.step && point * r.step < r.high

/-- Of the two grid points around the value, the nearer one that rounds to it; at equal distance
the even one. -/
def onGrid? (r : Reach) : Option Nat :=
  let floor := r.value / r.step
  match r.holds floor, r.holds (floor + 1) with
  | false, false => none
  | true, false => some floor
  | false, true => some (floor + 1)
  | true, true =>
    let twice := 2 * r.value
    let middle := (2 * floor + 1) * r.step
    if twice < middle ∨ (twice = middle ∧ floor % 2 = 0) then some floor else some (floor + 1)

/-- The power of ten of the first digit of `significand * 2 ^ power`. -/
def magnitude (significand : Nat) (power : Int) : Int :=
  let (num, den) := Binary64.scale 2 significand 1 power
  if den ≤ num then (Text.digits (num / den)).length - 1 else -(Text.digits (den / num)).length

/-- The first grid, from `count` digits on, with a point that rounds to the value.  Seventeen
digits always suffice. -/
def search (significand : Nat) (power top : Int) (count : Nat) : Nat → Nat × Int
  | 0 => (0, 0)
  | more + 1 =>
    let exponent := top - count + 1
    match onGrid? (reach significand power exponent) with
    | some digits => (digits, exponent)
    | none => search significand power top (count + 1) more

/-- The shortest decimal `digits * 10 ^ exponent` of a positive value. -/
def decimal (significand : Nat) (power : Int) : Nat × Int :=
  search significand power (magnitude significand power) 1 17

end Lexline.Shortest
