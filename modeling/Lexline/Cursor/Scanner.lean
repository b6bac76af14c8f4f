import Lexline.Cursor.Move

/-!
# The scanner

A cursor as a program keeps it: the whole source, two indices into it, the character under the first
of them, and the line with the index at which it starts.  Every request is carried out on these
fields, character by character.

* `Scanner.start`, `Scanner.read`, `Scanner.peek` — the first character, and moving on from one.
* `Scanner.position` — where the scanner stands, computed from its fields.
* `Scanner.readWhile` — the run of a class of characters, cut out of the source.
* `Scanner.next` — the next token; at the end of the source an end token, again and again.
* `Scanner.perform`, `Scanner.performAll` — carrying out one request, and several in order.
-/

namespace Lexline

/-- The fields of a scanner. -/
structure Scanner where
  source : List Char
  index : Nat
  nextIndex : Nat
  current : Option Char
  line : Nat
  lineStart : Nat
  deriving DecidableEq, Repr

namespace Scanner

/-- The character to read next. -/
def peek (s : Scanner) : Option Char := s.source[s.nextIndex]?

/-- Whether the character under the scanner ends its line. -/
def endsLine (s : Scanner) : Bool :=
  s.current == some '\n' || (s.current == some '\r' && s.peek != some '\n')

/-- Moves by one character.  Past the end the indices still grow. -/
def read (s : Scanner) : Scanner where
  source := s.source
  index := s.nextIndex
  nextIndex := s.nextIndex + 1
  current := s.peek
  line := if s.endsLine then s.line + 1 else s.line
  lineStart := if s.endsLine then s.nextIndex else s.lineStart

/-- The scanner at the start of a source. -/
def start (source : List Char) : Scanner := read ⟨source, 0, 0, none, 1, 0⟩

/-- Where the scanner stands. -/
def position (s : Scanner) : Position := ⟨s.line, s.index - s.lineStart + 1, s.index⟩

/-- The number of characters that are still to be moved over. -/
def remaining (s : Scanner) : Nat :=
  s.source.length - s.nextIndex + (if s.current.isSome then 1 else 0)

/-- Moving over a character leaves fewer. -/
theorem remaining_read {s : Scanner} (h : s.current ≠ none) : s.read.remaining < s.remaining := by
  have hcurrent : s.current.isSome = true := Option.isSome_iff_ne_none.2 h
  unfold remaining
  rw [if_pos hcurrent]
  show s.source.length - (s.nextIndex + 1) + (if s.peek.isSome then 1 else 0) < _
  by_cases hlt : s.nextIndex < s.source.length
  · split <;> omega
  · have hpeek : s.peek = none := List.getElem?_eq_none (by omega)
    rw [hpeek]
    simp
    omega

/-- Moves over the characters that satisfy `p`. -/
def skipWhile (p : Char → Bool) (s : Scanner) : Scanner :=
  match _h : s.current with
  | none => s
  | some c => if p c then s.read.skipWhile p else s
termination_by s.remaining
decreasing_by exact remaining_read (by simp [_h])

/-- The run of the characters that satisfy `p`, and the scanner after it. -/
def readWhile (p : Char → Bool) (s : Scanner) : List Char × Scanner :=
  let t := s.skipWhile p
  ((s.source.take t.index).drop s.index, t)

/-- The token at a character, and the scanner after it. -/
def dispatch (s : Scanner) (c : Char) : Token × Scanner :=
  let token (kind : Kind) (text : List Char) : Token :=
    ⟨kind, String.ofList text, some s.position⟩
  match pairedKinds? c with
  | some (alone, paired) =>
    if s.peek = some '=' then (token paired [c, '='], s.read.read) else (token alone [c], s.read)
  | none =>
    match soloKind? c with
    | some kind => (token kind [c], s.read)
    | none =>
      if isLetter c then
        let (word, t) := s.readWhile isLetter
        (token (wordKind (String.ofList word)) word, t)
      else if isDigit c then
        let (digits, t) := s.readWhile isDigit
        (token .int digits, t)
      else (token .illegal [c], s.read)

/-- The next token, or the end token once the source is used up. -/
def next (s : Scanner) : Token × Scanner :=
  let t := s.skipWhile isSpace
  match t.current with
  | none => (⟨.eof, endLiteral, some t.position⟩, t)
  | some c => t.dispatch c

theorem remaining_skipWhile (p : Char → Bool) (s : Scanner) :
    (s.skipWhile p).remaining ≤ s.remaining := by
  fun_induction skipWhile p s with
  | case1 => exact Nat.le_refl _
  | case2 s c hc _ ih => exact Nat.le_trans ih (Nat.le_of_lt (remaining_read (by simp [hc])))
  | case3 => exact Nat.le_refl _

/-- A run that starts with the character under the scanner moves over it. -/
theorem remaining_readWhile {p : Char → Bool} {s : Scanner} {c : Char} (h : s.current = some c)
    (hc : p c = true) : (s.readWhile p).2.remaining < s.remaining := by
  have hskip : s.skipWhile p = s.read.skipWhile p := by
    rw [skipWhile]
    split
    · simp_all
    · simp_all
  show (s.skipWhile p).remaining < _
  rw [hskip]
  exact Nat.lt_of_le_of_lt (remaining_skipWhile p s.read) (remaining_read (by simp [h]))

/-- Every token but the end token takes at least one character. -/
theorem remaining_next {s : Scanner} (h : s.next.1.kind ≠ .eof) :
    s.next.2.remaining < s.remaining := by
  have hskip := remaining_skipWhile isSpace s
  unfold next at h ⊢
  simp only at h ⊢
  generalize s.skipWhile isSpace = t at h hskip ⊢
  cases hcurrent : t.current with
  | none => simp [hcurrent] at h
  | some c =>
    have hread : t.read.remaining < t.remaining := remaining_read (by simp [hcurrent])
    have hagain : t.read.read.remaining ≤ t.read.remaining := by
      cases hnext : t.read.current with
      | none =>
        have hpeek : t.peek = none := hnext
        have hout : t.source.length ≤ t.nextIndex := List.getElem?_eq_none_iff.1 hpeek
        have hlast : t.read.peek = none :=
          List.getElem?_eq_none (show t.source.length ≤ t.nextIndex + 1 by omega)
        show t.source.length - (t.nextIndex + 1 + 1) + (if t.read.peek.isSome then 1 else 0) ≤ _
        rw [hlast]
        simp
        omega
      | some d => exact Nat.le_of_lt (remaining_read (by simp [hnext]))
    simp only
    unfold dispatch
    simp only
    split
    · split <;> (simp only; omega)
    · split
      · simp only; omega
      · split
        · have hrun := remaining_readWhile hcurrent (by assumption)
          simp only
          omega
        · split
          · have hrun := remaining_readWhile hcurrent (by assumption)
            simp only
            omega
          · simp only
            omega

/-- All tokens before the end of the source, and the scanner at the end. -/
def tokens (s : Scanner) : List Token × Scanner :=
  if _h : s.next.1.kind = .eof then ([], s.next.2)
  else
    let (ts, last) := s.next.2.tokens
    (s.next.1 :: ts, last)
termination_by s.remaining
decreasing_by exact remaining_next _h

/-- The first `n` tokens before the end of the source, and the scanner after them. -/
def take : Scanner → Nat → List Token × Scanner
  | s, 0 => ([], s)
  | s, n + 1 =>
    if s.next.1.kind = .eof then ([], s.next.2)
    else
      let (ts, last) := take s.next.2 n
      (s.next.1 :: ts, last)

/-- All tokens left, with the end token. -/
def tokenize (s : Scanner) : List Token × Scanner :=
  let (ts, t) := s.tokens
  (ts ++ [t.next.1], t.next.2)

/-- Carries out a request. -/
def perform (s : Scanner) : Move → Reply × Scanner
  | .next => (.token s.next.1, s.next.2)
  | .peek => (.character s.peek, s)
  | .read => (.nothing, s.read)
  | .skip => (.nothing, s.skipWhile isSpace)
  | .word => (.run (s.readWhile isLetter).1, (s.readWhile isLetter).2)
  | .number => (.run (s.readWhile isDigit).1, (s.readWhile isDigit).2)
  | .tokens => (.tokens s.tokens.1, s.tokens.2)
  | .take n => (.tokens (s.take n).1, (s.take n).2)
  | .tokenize => (.tokens s.tokenize.1, s.tokenize.2)

/-- Carries out requests in order. -/
def performAll (s : Scanner) : List Move → List Reply × Scanner
  | [] => ([], s)
  | m :: rest =>
    let (reply, t) := s.perform m
    let (replies, last) := performAll t rest
    (reply :: replies, last)

end Scanner

end Lexline
