import Lexline.Token.Basic
import Lexline.Token.Lexicon

/-!
# The cursor

A cursor is the text left to read together with the position of its first character.  Moving it
over a character counts lines: a line feed ends a line, and so does a carriage return that no
line feed follows.

* `Cursor.read`, `Cursor.advance` — moving by one character, by several.
* `Cursor.readWhile`, `Cursor.skipSpaces` — moving over a class of characters.
* `advance_rest`, `readWhile_rest` — what is left to read after a move.
-/

namespace Lexline

/-- Whether the first character of a text ends a line. -/
def endsLine : List Char → Bool
  | [] => false
  | c :: rest => c == '\n' || (c == '\r' && rest.head? != some '\n')

/-- The text left to read, and the position of its first character. -/
structure Cursor where
  rest : List Char
  position : Position
  deriving DecidableEq, Repr

namespace Cursor

/-- The cursor at the start of a source. -/
def start (source : List Char) : Cursor := ⟨source, .start⟩

/-- The offset of the character under the cursor. -/
def offset (c : Cursor) : Int := c.position.offset

/-- The offset of the character that `peek` shows. -/
def nextOffset (c : Cursor) : Int := c.offset + 1

/-- The character under the cursor. -/
def current (c : Cursor) : Option Char := c.rest.head?

/-- The character after the one under the cursor. -/
def peek (c : Cursor) : Option Char := c.rest.tail.head?

/-- Moves by one character.  Past the end the position still grows. -/
def read (c : Cursor) : Cursor :=
  ⟨c.rest.tail, if endsLine c.rest then c.position.nextLine else c.position.nextColumn⟩

/-- Moves by `n` characters. -/
def advance : Cursor → Nat → Cursor
  | c, 0 => c
  | c, n + 1 => advance c.read n

/-- The longest run of characters that satisfy `p`, and the cursor after it. -/
def readWhile (p : Char → Bool) (c : Cursor) : List Char × Cursor :=
  let run := c.rest.takeWhile p
  (run, c.advance run.length)

/-- The cursor after the blanks under it. -/
def skipSpaces (c : Cursor) : Cursor := (c.readWhile isSpace).2

/-- The run of letters under the cursor. -/
def readWord (c : Cursor) : List Char × Cursor := c.readWhile isLetter

/-- The run of digits under the cursor. -/
def readNumber (c : Cursor) : List Char × Cursor := c.readWhile isDigit

theorem advance_rest (c : Cursor) (n : Nat) : (c.advance n).rest = c.rest.drop n := by
  induction n generalizing c with
  | zero => rfl
  | succ n ih => simp [advance, ih, read]

/-- Moving over a class of characters leaves what starts with none of them. -/
theorem readWhile_rest (p : Char → Bool) (c : Cursor) :
    (c.readWhile p).2.rest = c.rest.dropWhile p := by
  simp only [readWhile, advance_rest]
  induction c.rest with
  | nil => rfl
  | cons x xs ih =>
    rw [List.takeWhile_cons, List.dropWhile_cons]
    split <;> simp [ih]

theorem skipSpaces_rest (c : Cursor) : c.skipSpaces.rest = c.rest.dropWhile isSpace :=
  readWhile_rest isSpace c

end Cursor

end Lexline
