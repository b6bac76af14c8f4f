import Lexline.Datum.Basic
import Lexline.Token.Kind

/-!
# Tokens

* `Position` — a place in a source: line and column from one, offset from zero.  Reports may
  name places outside any source, so the numbers are integers.
* `Token` — a kind, the text it was scanned from, and possibly its position.
* `Token.same` — equality of tokens, which leaves the position out.
* `Token.describe` — the full text of a token, its position included.
* `Token.ofDatum` — a token whose literal is given as any value; what is kept is its text.
-/

namespace Lexline

/-- A place in a source. -/
structure Position where
  line : Int
  column : Int
  offset : Int
  deriving DecidableEq, Repr

/-- The start of a source. -/
def Position.start : Position := ⟨1, 1, 0⟩

/-- The place after a character that ends no line. -/
def Position.nextColumn (p : Position) : Position := ⟨p.line, p.column + 1, p.offset + 1⟩

/-- The place after a character that ends a line. -/
def Position.nextLine (p : Position) : Position := ⟨p.line + 1, 1, p.offset + 1⟩

/-- A token of the source. -/
structure Token where
  kind : Kind
  literal : String
  position : Option Position
  deriving DecidableEq, Repr

namespace Token

/-- Two tokens count as equal if kind and literal agree, wherever they stand. -/
def same (a b : Token) : Bool := a.kind == b.kind && a.literal == b.literal

/-- The text of a position. -/
def describePosition : Option Position → String
  | none => "None"
  | some p =>
    "Position(line=" ++ Text.numeralString p.line ++ ", column=" ++ Text.numeralString p.column ++
      ", offset=" ++ Text.numeralString p.offset ++ ")"

/-- The full text of a token. -/
def describe (t : Token) : String :=
  "Token(type=<TokenType." ++ t.kind.name ++ ": " ++ Text.numeralString t.kind.number ++
    ">, literal=" ++ Text.quote t.literal ++ ", position=" ++ describePosition t.position ++ ")"

/-- A token whose literal is the text of a value. -/
def ofDatum (kind : Kind) (literal : Datum) (position : Option Position) : Token :=
  ⟨kind, literal.display, position⟩

end Token

end Lexline
