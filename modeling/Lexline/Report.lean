import Lexline.Limit
import Lexline.Text.Character
import Lexline.Text.Line
import Lexline.Text.Numeral
import Lexline.Text.Escape
import Lexline.Token.Basic

/-!
# Reports on illegal characters

A report shows a message, a place, the source line at that place and a caret under the column.

* `Report.ofToken` — the report on a token of a chunk, with its place in the whole source.
* `Report.render` — the five lines of a report, and `Report.write` the same within the limits.
* `firstIllegal?` — the report on the first illegal token of a list, if there is one.
-/

namespace Lexline

/-- A message about a place in a source. -/
structure Report where
  message : String
  position : Position
  source : List Char
  deriving DecidableEq, Repr

namespace Report

/-- The items before index `n`; a negative `n` leaves out that many at the end. -/
def upTo {α : Type} (n : Int) (items : List α) : List α :=
  items.take (if n < 0 then items.length + n else n).toNat

/-- The message about an illegal text. -/
def illegalMessage (literal : String) : String := "illegal character " ++ Text.quote literal

/-- The report on a token of a chunk of `source`.  `lineOffset` lines stand before the chunk, and
the offset of the report counts from the start of the source. -/
def ofToken (t : Token) (source : List Char) (lineOffset : Int) : Report :=
  let p := t.position.getD .start
  let line := p.line + lineOffset
  let before := (upTo (line - 1) (Text.splitLines source)).flatten.length
  ⟨illegalMessage t.literal, ⟨line, p.column, before + p.column - 1⟩, source⟩

/-- The line of the source with a given number, without its ending; empty if there is none. -/
def sourceLine (source : List Char) (line : Int) : List Char :=
  if line ≤ 0 then []
  else
    let found := (Text.splitLines source).getD (line - 1).toNat []
    Text.dropTrailing (· == '\r') (Text.dropTrailing (· == '\n') found)

/-- The five lines of a report, for a source with the given name. -/
def render (r : Report) (filename : String) : List Char :=
  let number := Text.numeral r.position.line
  let gutter := List.replicate (number.length + 1) ' '
  let column := Text.numeral r.position.column
  let indent := List.replicate (r.position.column - 1).toNat ' '
  "error: ".toList ++ r.message.toList ++ '\n' ::
    (gutter ++ "--> ".toList ++ filename.toList ++ ':' :: number ++ ':' :: column) ++ '\n' ::
    (gutter ++ ['|']) ++ '\n' ::
    (number ++ " | ".toList ++ sourceLine r.source r.position.line) ++ '\n' ::
    (gutter ++ "| ".toList ++ indent ++ ['^'])

/-- The five lines of a report, unless the column is out of all bounds or the line number is too
long. -/
def write (r : Report) (filename : String) : Except LimitReached (List Char) :=
  if !Limit.counts (r.position.column - 1) then .error .count
  else if !Limit.hasNumeral r.position.line then .error .writtenNumeral
  else .ok (r.render filename)

/-- The name of a source that is not a file. -/
def consoleName : String := "<stdin>"

end Report

/-- The report on the first illegal token of a list. -/
def firstIllegal? (ts : List Token) (source : List Char) (lineOffset : Int) : Option Report :=
  (ts.find? (fun t => t.kind == .illegal)).map (fun t => Report.ofToken t source lineOffset)

end Lexline
