/-!
# Lines

Two ways to cut a text into lines, each line keeping its ending.

* `splitLines` — a line ends at a line feed, at a carriage return and a line feed together,
  or at a carriage return alone.
* `feedLines` — a line ends at a line feed only.
* `unifyBreaks` — every line ending turned into one line feed.

In all three a last line without an ending stands, and the empty text has no lines.
-/

namespace Lexline.Text

/-- Puts a character in front of the first line. -/
def pushLine (c : Char) : List (List Char) → List (List Char)
  | [] => [[c]]
  | line :: lines => (c :: line) :: lines

/-- The lines of a text, ending at LF, CR LF or CR. -/
def splitLines : List Char → List (List Char)
  | [] => []
  | '\r' :: '\n' :: rest => ['\r', '\n'] :: splitLines rest
  | c :: rest =>
    if c = '\n' ∨ c = '\r' then [c] :: splitLines rest else pushLine c (splitLines rest)

/-- The lines of a text, ending at LF. -/
def feedLines : List Char → List (List Char)
  | [] => []
  | c :: rest => if c = '\n' then [c] :: feedLines rest else pushLine c (feedLines rest)

/-- A text with every CR LF and every lone CR turned into LF. -/
def unifyBreaks : List Char → List Char
  | [] => []
  | '\r' :: '\n' :: rest => '\n' :: unifyBreaks rest
  | c :: rest => (if c = '\r' then '\n' else c) :: unifyBreaks rest

theorem flatten_pushLine (c : Char) (lines : List (List Char)) :
    (pushLine c lines).flatten = c :: lines.flatten := by
  cases lines <;> rfl

/-- Cutting into lines loses nothing. -/
theorem flatten_splitLines (text : List Char) : (splitLines text).flatten = text := by
  fun_induction splitLines text with
  | case1 => rfl
  | case2 rest ih => simp [ih]
  | case3 c rest _ _ ih => simp [ih]
  | case4 c rest _ _ ih => simp [flatten_pushLine, ih]

end Lexline.Text
