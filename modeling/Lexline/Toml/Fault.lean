import Lexline.Limit
import Lexline.Text.Numeral
import Lexline.Text.Escape

/-!
# Faults of a configuration text

* `Toml.Cause` — why a text is no configuration.
* `Toml.Fault` — a cause, and how many characters were left to read where it was found, or a
  limit that was met.
* `Toml.describePlace` — the line and the column of a place in a document.
-/

namespace Lexline.Toml

/-- A dotted key: the names of the tables to go through, and the last name. -/
abbrev Key := List String

/-- Why a text is no configuration. -/
inductive Cause where
  | invalidStatement
  | expectedNewline
  | expectedEquals
  | invalidKeyPart
  | expectedTableEnd
  | expectedArrayEnd
  | unclosedArray
  | unclosedTable
  | invalidValue
  | invalidDate
  | declaredTwice (key : Key)
  | redefined (key : Key)
  | immutable (key : Key)
  | overwritten
  | duplicateKey (name : String)
  | unterminated
  | expectedMark (mark : String)
  | illegalCharacter (c : Char)
  | invalidCharacter (c : Char)
  | unescaped
  | invalidHex
  | notScalar
  deriving DecidableEq, Repr

/-- Why reading stops: a cause, with the number of characters left to read where it was found, or
a limit. -/
inductive Fault where
  | malformed (cause : Cause) (left : Nat)
  | limit (reached : LimitReached)
  deriving DecidableEq, Repr

/-- The text of a key: its names in quotes, between brackets. -/
def describeKey (key : Key) : String :=
  match key with
  | [name] => "(" ++ Text.quote name ++ ",)"
  | names => "(" ++ ", ".intercalate (names.map Text.quote) ++ ")"

/-- The wording of a cause. -/
def Cause.message : Cause → String
  | invalidStatement => "Invalid statement"
  | expectedNewline => "Expected newline or end of document after a statement"
  | expectedEquals => "Expected '=' after a key in a key/value pair"
  | invalidKeyPart => "Invalid initial character for a key part"
  | expectedTableEnd => "Expected ']' at the end of a table declaration"
  | expectedArrayEnd => "Expected ']]' at the end of an array declaration"
  | unclosedArray => "Unclosed array"
  | unclosedTable => "Unclosed inline table"
  | invalidValue => "Invalid value"
  | invalidDate => "Invalid date or datetime"
  | declaredTwice key => "Cannot declare " ++ describeKey key ++ " twice"
  | redefined key => "Cannot redefine namespace " ++ describeKey key
  | immutable key => "Cannot mutate immutable namespace " ++ describeKey key
  | overwritten => "Cannot overwrite a value"
  | duplicateKey name => "Duplicate inline table key " ++ Text.quote name
  | unterminated => "Unterminated string"
  | expectedMark mark => "Expected " ++ Text.quote mark
  | illegalCharacter c => "Illegal character " ++ Text.quote (String.singleton c)
  | invalidCharacter c => "Found invalid character " ++ Text.quote (String.singleton c)
  | unescaped => "Unescaped '\\' in a string"
  | invalidHex => "Invalid hex value"
  | notScalar => "Escaped character is not a Unicode scalar value"

/-- The place in a document where `left` characters are left to read. -/
def describePlace (document : List Char) (left : Nat) : String :=
  if left = 0 then "end of document"
  else
    let before := document.take (document.length - left)
    let line := before.count '\n' + 1
    let column := (before.reverse.takeWhile (· != '\n')).length + 1
    "line " ++ Text.numeralString line ++ ", column " ++ Text.numeralString column

/-- A fault found where `rest` is left to read. -/
def fail {α : Type} (cause : Cause) (rest : List Char) : Except Fault α :=
  .error (.malformed cause rest.length)

end Lexline.Toml
