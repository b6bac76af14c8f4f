import Lexline.Limit
import Lexline.Text.Escape
import Lexline.Text.Numeral
import Lexline.Token.Basic

/-!
# Token records

One token printed on one line, as text or as a JSON object.

* `Format` — the two forms.
* `Record.text`, `Record.json` — a token in each form.
* `Record.render` — a token in the form asked for, and `dump` a list of tokens, one to a line.
* `Record.write`, `writeAll` — the same up to a number that is too long to be written.

A line offset is added to the line of a position, for tokens of a chunk from the middle of a
file.
-/

namespace Lexline

/-- The two forms of a record. -/
inductive Format where
  | text
  | json
  deriving DecidableEq, Repr

namespace Format

/-- The formats, in the order in which they are offered. -/
def all : List Format := [text, json]

/-- The name of a format. -/
def name : Format → String
  | text => "text"
  | json => "json"

/-- The format with a given name. -/
def ofName? (s : String) : Option Format := all.find? (fun f => f.name == s)

/-- The format that a name selects for printing: every name but that of JSON means text. -/
def ofName (s : String) : Format := (ofName? s).getD text

end Format

namespace Record

/-- A token as text: the name of its kind and its literal in quotes. -/
def text (t : Token) : List Char :=
  t.kind.name.toList ++ ' ' :: Text.Quoted.encode t.literal.toList

/-- The part of a JSON record that places the token. -/
def jsonPlace (lineOffset : Int) : Option Position → List Char
  | none => []
  | some p =>
    ", \"line\": ".toList ++ Text.numeral (p.line + lineOffset) ++
      ", \"column\": ".toList ++ Text.numeral p.column

/-- A token as a JSON object: kind, literal, and, if it has a position, line and column. -/
def json (lineOffset : Int) (t : Token) : List Char :=
  "\x7b\"type\": ".toList ++ Text.JsonText.encode t.kind.name.toList ++
    ", \"literal\": ".toList ++ Text.JsonText.encode t.literal.toList ++
    jsonPlace lineOffset t.position ++ ['}']

/-- A token in a given form. -/
def render (format : Format) (lineOffset : Int) (t : Token) : List Char :=
  match format with
  | .text => text t
  | .json => json lineOffset t

/-- The numbers that a record shows. -/
def numbers (format : Format) (lineOffset : Int) (t : Token) : List Int :=
  match format, t.position with
  | .json, some p => [p.line + lineOffset, p.column]
  | _, _ => []

/-- Whether all of these numbers are short enough to be written. -/
def isWritable (format : Format) (lineOffset : Int) (t : Token) : Bool :=
  (numbers format lineOffset t).all Limit.hasNumeral

/-- A token in a given form, unless one of its numbers is too long. -/
def write (format : Format) (lineOffset : Int) (t : Token) : Except LimitReached (List Char) :=
  if isWritable format lineOffset t then .ok (render format lineOffset t)
  else .error .writtenNumeral

end Record

/-- The records of a list of tokens, each on a line of its own. -/
def dump (format : Format) (lineOffset : Int) (ts : List Token) : List Char :=
  ts.flatMap (fun t => Record.render format lineOffset t ++ ['\n'])

/-- The records of a list of tokens, written one after the other, and the limit that ends them: the
first token with a number that is too long has no record, and those after it are not reached. -/
def writeAll (format : Format) (lineOffset : Int) : List Token → List Char × Option LimitReached
  | [] => ([], none)
  | t :: rest =>
    match Record.write format lineOffset t with
    | .error limit => ([], some limit)
    | .ok record =>
      let after := writeAll format lineOffset rest
      (record ++ '\n' :: after.1, after.2)

end Lexline
