import Lexline.Datum.Basic
import Lexline.Toml.Lexeme

/-!
# Numbers, dates and times of a configuration

Each reader takes the longest start of a text that has its form.

* `dateTimeAt?`, `timeAt?` — a day, possibly with a time, and a time of day.
* `basedAt?`, `decimalAt?` — an integer in a base that has a letter, and a decimal number.
* `specialAt?` — the infinities, and what is not a number.
* `scalar` — any of them.
-/

namespace Lexline.Toml

open Text (isAsciiDigit decimalValue)

/-- The number that a run of decimal digits denotes; underscores do not count. -/
def decimalNumber (run : List Char) : Nat := decimalValue (run.filter (· != '_'))

/-! ## Dates and times -/

/-- The number that exactly `width` digits at the start of a text denote. -/
def fixedNumber? (width : Nat) (text : List Char) : Option Nat :=
  let digits := text.take width
  if digits.length = width ∧ digits.all isAsciiDigit then some (decimalValue digits) else none

/-- The microseconds that the digits of a fraction denote: the first six, filled up with zeros. -/
def microseconds (digits : List Char) : Nat :=
  let six := digits.take 6
  decimalValue six * Nat.pow 10 (6 - six.length)

/-- The length of the fraction at the start of a text, and its microseconds. -/
def fractionAt (text : List Char) : Nat × Nat :=
  match text with
  | '.' :: rest =>
    let digits := rest.takeWhile isAsciiDigit
    if digits = [] then (0, 0) else (microseconds digits, digits.length + 1)
  | _ => (0, 0)

/-- A time of day at the start of a text. -/
def timeAt? (text : List Char) : Option (Time × Nat) := do
  let hour ← fixedNumber? 2 text
  let minute ← fixedNumber? 2 (text.drop 3)
  let second ← fixedNumber? 2 (text.drop 6)
  guard (text[2]? = some ':' ∧ text[5]? = some ':' ∧ hour < 24 ∧ minute < 60 ∧ second < 60)
  let (micro, n) := fractionAt (text.drop 8)
  return (⟨hour, minute, second, micro⟩, 8 + n)

/-- A day at the start of a text.  It need not be in the calendar. -/
def dateAt? (text : List Char) : Option Date := do
  let year ← fixedNumber? 4 text
  let month ← fixedNumber? 2 (text.drop 5)
  let day ← fixedNumber? 2 (text.drop 8)
  guard (text[4]? = some '-' ∧ text[7]? = some '-' ∧ 1 ≤ month ∧ month ≤ 12 ∧ 1 ≤ day ∧ day ≤ 31)
  return ⟨year, month, day⟩

/-- The offset at the start of a text, in minutes. -/
def offsetAt? (text : List Char) : Option (Int × Nat) :=
  match text with
  | [] => none
  | c :: rest =>
    if c = 'Z' ∨ c = 'z' then some (0, 1)
    else if c = '+' ∨ c = '-' then do
      let hours ← fixedNumber? 2 rest
      let minutes ← fixedNumber? 2 (rest.drop 3)
      guard (rest[2]? = some ':' ∧ hours < 24 ∧ minutes < 60)
      let total : Int := 60 * hours + minutes
      return (if c = '-' then -total else total, 6)
    else none

/-- A day at the start of a text, with the time and the offset that may follow it. -/
def dateTimeAt? (text : List Char) : Option (Date × Datum × Nat) := do
  let date ← dateAt? text
  let separated := (text[10]?.map (fun c => c == 'T' || c == 't' || c == ' ')).getD false
  let clock := if separated then timeAt? (text.drop 11) else none
  match clock with
  | none => return (date, .date date, 10)
  | some (time, n) =>
    match offsetAt? (text.drop (11 + n)) with
    | none => return (date, .dateTime ⟨date, time, none⟩, 11 + n)
    | some (minutes, m) => return (date, .dateTime ⟨date, time, some minutes⟩, 11 + n + m)

/-! ## Numbers -/

/-- The length of the rest of a digit run, where an underscore may stand before each digit. -/
def runTail (p : Char → Bool) : List Char → Nat
  | [] => 0
  | '_' :: c :: rest => if p c then 2 + runTail p rest else 0
  | c :: rest => if p c then 1 + runTail p rest else 0

/-- The length of the digit run at the start of a text. -/
def runLength (p : Char → Bool) : List Char → Nat
  | [] => 0
  | c :: rest => if p c then 1 + runTail p rest else 0

/-- A digit run in a base that is a power of two. -/
def basedNumber (base : Nat) (run : List Char) : Nat :=
  run.foldl (fun n c => match Text.hexValue? c with
    | some d => base * n + d
    | none => n) 0

/-- The bases that have a letter, with their digits. -/
def bases : List (Char × Nat × (Char → Bool)) :=
  [('x', 16, fun c => (Text.hexValue? c).isSome), ('b', 2, fun c => c == '0' || c == '1'),
   ('o', 8, fun c => '0' ≤ c && c ≤ '7')]

/-- An integer with a base letter at the start of a text. -/
def basedAt? (text : List Char) : Option (Datum × Nat) :=
  match text with
  | '0' :: letter :: rest => do
    let (base, p) ← bases.lookup letter
    let n := runLength p rest
    guard (0 < n)
    return (.integer (basedNumber base (rest.take n)), 2 + n)
  | _ => none

/-- The length of the whole part of a decimal number: no zero stands in front of other digits. -/
def wholeLength (text : List Char) : Nat :=
  match text with
  | '0' :: _ => 1
  | _ => runLength isAsciiDigit text

/-- The length of the fraction of a decimal number, with its point. -/
def fractionLength (text : List Char) : Nat :=
  match text with
  | '.' :: rest => if runLength isAsciiDigit rest = 0 then 0 else 1 + runLength isAsciiDigit rest
  | _ => 0

/-- Whether a character is a sign. -/
def isSign (c : Char) : Bool := c == '+' || c == '-'

/-- The number of signs at the start of a text: none or one. -/
def signLength (text : List Char) : Nat := ((text.take 1).takeWhile isSign).length

/-- The exponent of a decimal number and its length, with its letter and its sign. -/
def exponentAt (text : List Char) : Int × Nat :=
  match text with
  | [] => (0, 0)
  | c :: rest =>
    let sign := signLength rest
    let n := runLength isAsciiDigit (rest.drop sign)
    if (c = 'e' ∨ c = 'E') ∧ 0 < n then
      let size : Int := decimalNumber ((rest.drop sign).take n)
      (if rest.head? = some '-' then -size else size, 1 + sign + n)
    else (0, 0)

/-- A decimal number at the start of a text: an integer, unless a fraction or an exponent makes
it a floating-point number. -/
def decimalAt? (text : List Char) : Option (Datum × Nat) :=
  let negative := text.head? = some '-'
  let sign := signLength text
  let unsigned := text.drop sign
  let whole := wholeLength unsigned
  let fraction := fractionLength (unsigned.drop whole)
  let (exponent, last) := exponentAt (unsigned.drop (whole + fraction))
  if whole = 0 then none
  else if fraction + last = 0 then
    let n : Int := decimalNumber (unsigned.take whole)
    some (.integer (if negative then -n else n), sign + whole)
  else
    let wholeRun := unsigned.take whole
    let fractionRun := ((unsigned.drop whole).take fraction).filter isAsciiDigit
    let digits := decimalNumber (wholeRun ++ fractionRun)
    some (.float (Binary64.ofDecimal negative digits (exponent - fractionRun.length)),
      sign + whole + fraction + last)

/-- The limit on the digits of a decimal integer.  Its first digit is no zero, so that the digits
of its value are counted. -/
def withinLimit (value : Datum) (n : Nat) : Reading Datum :=
  match value with
  | .integer k =>
    if Limit.hasNumeral k then .ok (value, n)
    else .error (.limit (.readNumeral (Text.digits k.natAbs).length))
  | _ => .ok (value, n)

/-- An infinity, or what is not a number, at the start of a text. -/
def specialAt? (text : List Char) : Option (Datum × Nat) :=
  let sign := signLength text
  let word := (text.drop sign).take 3
  if word = ['i', 'n', 'f'] then some (.float (.infinite (text.head? = some '-')), sign + 3)
  else if word = ['n', 'a', 'n'] then some (.float .nan, sign + 3)
  else none

/-- A date, a time or a number at the start of a text. -/
def scalar (text : List Char) : Reading Datum :=
  match dateTimeAt? text with
  | some (date, value, n) => if date.isValid then .ok (value, n) else fail .invalidDate text
  | none =>
    match timeAt? text with
    | some (time, n) => .ok (.time time, n)
    | none =>
      match basedAt? text, decimalAt? text, specialAt? text with
      | some (value, n), _, _ => .ok (value, n)
      | none, some (value, n), _ => withinLimit value n
      | none, none, some (value, n) => .ok (value, n)
      | none, none, none => fail .invalidValue text

end Lexline.Toml
