import Lexline.Datum.Calendar
import Lexline.Decimal.Notation
import Lexline.Limit
import Lexline.Text.Escape

/-!
# Data

A value of a configuration, or one given as a token's literal.

* `Datum` — nothing, a truth value, a number, a text, a list, a table, a date or a time.
* `Datum.describe` — the text of a value inside other values, with texts quoted.
* `Datum.display` — the text of a value by itself, a text being its own.
* `Datum.limit?` — the limit that writing a value meets in some room, if it meets one.
-/

namespace Lexline

/-- A value.  The fields of a table stand in the order in which they were given. -/
inductive Datum where
  | null
  | boolean (b : Bool)
  | integer (n : Int)
  | float (x : Binary64)
  | text (s : String)
  | list (items : List Datum)
  | table (fields : List (String × Datum))
  | date (d : Date)
  | time (t : Time)
  | dateTime (x : DateTime)
  deriving Repr

/-- The fields of a table. -/
abbrev Fields := List (String × Datum)

namespace Datum

mutual

/-- The text of a value inside other values. -/
def describe : Datum → String
  | null => "None"
  | boolean b => if b then "True" else "False"
  | integer n => Text.numeralString n
  | float x => x.text
  | text s => Text.quote s
  | list items => "[" ++ ", ".intercalate (describeItems items) ++ "]"
  | table fields => "\x7b" ++ ", ".intercalate (describeFields fields) ++ "\x7d"
  | date d => d.describe
  | time t => t.describe
  | dateTime x => x.describe

/-- The texts of the items of a list. -/
def describeItems : List Datum → List String
  | [] => []
  | item :: rest => item.describe :: describeItems rest

/-- The texts of the fields of a table. -/
def describeFields : List (String × Datum) → List String
  | [] => []
  | (key, value) :: rest => (Text.quote key ++ ": " ++ value.describe) :: describeFields rest

end

/-- The text of a value by itself. -/
def display : Datum → String
  | text s => s
  | date d => d.iso
  | time t => t.iso
  | dateTime x => x.iso " "
  | other => other.describe

mutual

/-- The first limit that writing a value meets in some room.  Every value takes one of it, and the
offset of a time more. -/
def limit? : Nat → Datum → Option LimitReached
  | 0, _ => some .writtenNesting
  | _ + 1, integer n => if Limit.hasNumeral n then none else some .writtenNumeral
  | room + 1, list items => itemsLimit? room items
  | room + 1, table fields => fieldsLimit? room fields
  | room + 1, dateTime x => if room < x.offsetDepth then some .writtenNesting else none
  | _ + 1, _ => none

/-- The first limit that writing the items of a list meets. -/
def itemsLimit? (room : Nat) : List Datum → Option LimitReached
  | [] => none
  | item :: rest =>
    match limit? room item with
    | some limit => some limit
    | none => itemsLimit? room rest

/-- The first limit that writing the fields of a table meets. -/
def fieldsLimit? (room : Nat) : List (String × Datum) → Option LimitReached
  | [] => none
  | (_, value) :: rest =>
    match limit? room value with
    | some limit => some limit
    | none => fieldsLimit? room rest

end

end Datum

end Lexline
