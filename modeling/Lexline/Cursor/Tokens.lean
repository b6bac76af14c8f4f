import Lexline.Cursor.Basic
import Lexline.Token.Lexicon

/-!
# Tokens from a cursor

* `Cursor.next` — the next token; at the end of the text an end token, again and again.
* `Cursor.tokens`, `Cursor.take`, `Cursor.tokenize` — all tokens before the end, the first few
  of them, all of them with the end token.
* `tokenize`, `scan` — the tokens of a source, with the end token and without.
* `next?_rest_lt` — every token leaves less to read.
-/

namespace Lexline

namespace Cursor

/-- The token after the blanks under the cursor, unless the text ends there. -/
def next? (c : Cursor) : Option (Token × Cursor) :=
  let c := c.skipSpaces
  match firstLexeme c.rest with
  | none => none
  | some (kind, word) =>
    some (⟨kind, String.ofList word, some c.position⟩, c.advance word.length)

/-- The end token at the cursor. -/
def endToken (c : Cursor) : Token := ⟨.eof, endLiteral, some c.position⟩

/-- The next token, or the end token once the text is used up. -/
def next (c : Cursor) : Token × Cursor :=
  match c.next? with
  | some found => found
  | none => (c.skipSpaces.endToken, c.skipSpaces)

/-- Every token takes at least one character. -/
theorem next?_rest_lt {c d : Cursor} {t : Token} (h : c.next? = some (t, d)) :
    d.rest.length < c.rest.length := by
  unfold next? at h
  simp only at h
  split at h
  · simp at h
  · rename_i kind word hw
    cases h
    rw [advance_rest, List.length_drop]
    have hpos : 0 < word.length := List.length_pos_iff.2 (firstLexeme_ne_nil hw)
    have hrest : 0 < c.skipSpaces.rest.length := by
      cases hr : c.skipSpaces.rest with
      | nil => rw [hr] at hw; simp [firstLexeme] at hw
      | cons _ _ => simp
    have hle : c.skipSpaces.rest.length ≤ c.rest.length := by
      rw [skipSpaces_rest]
      exact (List.dropWhile_suffix isSpace).length_le
    omega

/-- All tokens before the end of the text, and the cursor at the end. -/
def tokens (c : Cursor) : List Token × Cursor :=
  match _h : c.next? with
  | none => ([], c.skipSpaces)
  | some (t, d) =>
    let (ts, last) := d.tokens
    (t :: ts, last)
termination_by c.rest.length
decreasing_by exact next?_rest_lt _h

/-- The first `n` tokens before the end of the text, and the cursor after them. -/
def take : Cursor → Nat → List Token × Cursor
  | c, 0 => ([], c)
  | c, n + 1 =>
    match c.next? with
    | none => ([], c.skipSpaces)
    | some (t, d) =>
      let (ts, last) := take d n
      (t :: ts, last)

/-- All tokens left, with the end token. -/
def tokenize (c : Cursor) : List Token × Cursor :=
  let (ts, d) := c.tokens
  let (t, e) := d.next
  (ts ++ [t], e)

end Cursor

/-- The tokens of a source, with the end token. -/
def tokenize (source : List Char) : List Token := (Cursor.start source).tokenize.1

/-- The tokens of a source, without the end token. -/
def scan (source : List Char) : List Token := (Cursor.start source).tokens.1

end Lexline
