import Lexline.Text.Numeral

/-!
# Limits

The sizes beyond which the program gives up.

* `LimitReached` — the limit that was met, and `LimitReached.message` its wording.
* `Limit.hasNumeral` — the integers short enough to be written in decimal.
* `Limit.counts` — the integers that can count something.

How deep values may stand inside values depends on how deep the program itself stands when it comes
to them, so that room is handed to whatever reads or writes a value.
-/

namespace Lexline

/-- A limit that was met: a number too long to write, a numeral too long to read, a number that
counts nothing, and values nested too deep to read or to write.  Reading can run out of room at the
start of a value or `inside` it. -/
inductive LimitReached where
  | writtenNumeral
  | readNumeral (digits : Nat)
  | count
  | readNesting (inside : Bool)
  | writtenNesting
  deriving DecidableEq, Repr

namespace Limit

/-- The most digits of a decimal numeral. -/
def numeralDigits : Nat := 4300

/-- Whether an integer has a numeral of at most that many digits. -/
def hasNumeral (n : Int) : Bool := n.natAbs < Nat.pow 10 numeralDigits

/-- The numbers that can count something lie below this one, and not below its negative. -/
def countBound : Int := 0x8000000000000000

/-- Whether an integer can be the number of times that something is repeated; a negative one asks
for none. -/
def counts (n : Int) : Bool := -countBound ≤ n && n < countBound

end Limit

/-- The wording of a limit that was met. -/
def LimitReached.message : LimitReached → String
  | writtenNumeral => numerals ++ remedy
  | readNumeral digits =>
    numerals ++ ": value has " ++ Text.numeralString digits ++ " digits" ++ remedy
  | count => "cannot fit 'int' into an index-sized integer"
  | readNesting inside => nesting ++ (if inside then " while calling a Python object" else "")
  | writtenNesting => nesting ++ " while getting the repr of an object"
where
  numerals := "Exceeds the limit (" ++ Text.numeralString Limit.numeralDigits ++
    " digits) for integer string conversion"
  remedy := "; use sys.set_int_max_str_digits() to increase the limit"
  nesting := "maximum recursion depth exceeded"

end Lexline
