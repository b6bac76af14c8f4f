import Lexline.Cursor.Scanner
import Lexline.Proofs.Movement

/-!
# A scanner is a cursor

A scanner keeps two indices, a character, a line and the start of that line; a cursor has the text
left to read and a position.  Whatever they are asked, the two say the same.

* `Scanner.Represents` — the fields of a scanner, as a cursor sees them.
* `Represents.read`, `Represents.skipWhile`, `Represents.next` — a request carried out on both
  sides.
* `performAll_represents` — **every run of requests gives the same replies on both sides**, and
  leaves a scanner that represents the cursor.
* `performAll_fields` — what the fields of a scanner hold after every run of requests.
-/

namespace Lexline

namespace Scanner

/-- `s.Represents source c`: the text left to read at `c` is what the source has from the index of
`s` on, the next index and the current character are what the index says, and the two stand at the
same position. -/
structure Represents (s : Scanner) (source : List Char) (c : Cursor) : Prop where
  whole : s.source = source
  rest : c.rest = source.drop s.index
  nextIndex : s.nextIndex = s.index + 1
  current : s.current = source[s.index]?
  position : c.position = s.position

variable {source : List Char} {s : Scanner} {c : Cursor}

/-! ## Single characters -/

theorem Represents.current_eq (h : s.Represents source c) : s.current = c.current := by
  rw [h.current, Cursor.current, h.rest, List.head?_drop]

theorem Represents.peek_eq (h : s.Represents source c) : s.peek = c.peek := by
  rw [peek, h.whole, h.nextIndex, Cursor.peek, h.rest, List.tail_drop, List.head?_drop]

theorem Represents.endsLine_eq (h : s.Represents source c) :
    s.endsLine = Lexline.endsLine c.rest := by
  have hcurrent := h.current_eq
  have hpeek := h.peek_eq
  unfold endsLine
  rw [hcurrent, hpeek, Cursor.current, Cursor.peek]
  cases c.rest with
  | nil => rfl
  | cons x rest =>
    simp only [List.head?_cons, List.tail_cons, Lexline.endsLine]
    rfl

theorem Represents.offset (h : s.Represents source c) : c.position.offset = s.index := by
  rw [h.position]
  rfl

/-- **Moving by one character.** -/
theorem Represents.read (h : s.Represents source c) : s.read.Represents source c.read where
  whole := h.whole
  rest := by
    show c.rest.tail = source.drop s.nextIndex
    rw [h.rest, h.nextIndex, List.tail_drop]
  nextIndex := rfl
  current := by
    show s.source[s.nextIndex]? = _
    rw [h.whole]
    rfl
  position := by
    have hindex := h.nextIndex
    show (if Lexline.endsLine c.rest then c.position.nextLine else c.position.nextColumn) = _
    rw [← h.endsLine_eq, h.position]
    cases hends : s.endsLine with
    | true =>
      simp only [Scanner.read, Scanner.position, hends, if_true, Position.nextLine, hindex]
      congr 1
      push_cast
      omega
    | false =>
      simp only [Scanner.read, Scanner.position, hends, Bool.false_eq_true, if_false,
        Position.nextColumn, hindex]
      congr 1
      push_cast
      omega

theorem start_represents (source : List Char) :
    (start source).Represents source (Cursor.start source) where
  whole := rfl
  rest := rfl
  nextIndex := rfl
  current := rfl
  position := rfl

/-! ## Runs of characters -/

/-- **Moving over a class of characters.** -/
theorem Represents.skipWhile (p : Char → Bool) (h : s.Represents source c) :
    (s.skipWhile p).Represents source (c.readWhile p).2 := by
  show (s.skipWhile p).Represents source (c.advance (c.rest.takeWhile p).length)
  fun_induction Scanner.skipWhile p s generalizing c with
  | case1 s hnone =>
    have hrest : c.rest = [] := List.head?_eq_none_iff.1 (h.current_eq.symm.trans hnone)
    rw [hrest]
    exact h
  | case2 s x hx hp ih =>
    obtain ⟨rest, hrest⟩ : ∃ rest, c.rest = x :: rest :=
      List.head?_eq_some_iff.1 (h.current_eq.symm.trans hx)
    have hread : c.read.rest = rest := by rw [Cursor.read, hrest]; rfl
    have hrun := ih h.read
    rw [hread] at hrun
    rw [hrest, List.takeWhile_cons_of_pos hp]
    exact hrun
  | case3 s x hx hp =>
    obtain ⟨rest, hrest⟩ : ∃ rest, c.rest = x :: rest :=
      List.head?_eq_some_iff.1 (h.current_eq.symm.trans hx)
    rw [hrest, List.takeWhile_cons_of_neg hp]
    exact h

/-- **The run of a class of characters** is cut out of the source from index to index. -/
theorem Represents.readWhile (p : Char → Bool) (h : s.Represents source c) :
    (s.readWhile p).1 = (c.readWhile p).1 ∧
      (s.readWhile p).2.Represents source (c.readWhile p).2 := by
  have hskip := h.skipWhile p
  refine ⟨?_, hskip⟩
  have hindex : (s.skipWhile p).index = s.index + (c.rest.takeWhile p).length := by
    have hoffset := Cursor.advance_offset c (c.rest.takeWhile p).length
    have hstart := h.offset
    have hstop : (c.advance (c.rest.takeWhile p).length).position.offset = (s.skipWhile p).index :=
      hskip.offset
    omega
  show (s.source.take (s.skipWhile p).index).drop s.index = c.rest.takeWhile p
  rw [h.whole, hindex, List.drop_take, Nat.add_sub_cancel_left, ← h.rest]
  exact (List.prefix_iff_eq_take.1 (List.takeWhile_prefix p)).symm

/-! ## Tokens -/

/-- What a scanner makes of a character is the lexeme that stands there. -/
theorem Represents.dispatch (h : s.Represents source c) {x : Char} {rest : List Char}
    (hrest : c.rest = x :: rest) : ∃ kind word, firstLexeme c.rest = some (kind, word) ∧
      (s.dispatch x).1 = ⟨kind, String.ofList word, some c.position⟩ ∧
      (s.dispatch x).2.Represents source (c.advance word.length) := by
  have hpeek : s.peek = rest.head? := by rw [h.peek_eq, Cursor.peek, hrest]; rfl
  have hrun (p : Char → Bool) (hx : p x = true) :
      (s.readWhile p).1 = x :: rest.takeWhile p ∧
        (s.readWhile p).2.Represents source (c.advance (x :: rest.takeWhile p).length) := by
    have htake : c.rest.takeWhile p = x :: rest.takeWhile p := by
      rw [hrest, List.takeWhile_cons_of_pos hx]
    rw [← htake]
    exact h.readWhile p
  rw [hrest]
  unfold firstLexeme Scanner.dispatch
  simp only [hpeek, ← h.position]
  cases hpaired : pairedKinds? x with
  | some kinds =>
    obtain ⟨alone, paired⟩ := kinds
    simp only
    split
    · exact ⟨_, _, rfl, rfl, h.read.read⟩
    · exact ⟨_, _, rfl, rfl, h.read⟩
  | none =>
    cases hsolo : soloKind? x with
    | some kind => exact ⟨_, _, rfl, rfl, h.read⟩
    | none =>
      simp only
      split
      · rename_i hletter
        obtain ⟨hword, hafter⟩ := hrun isLetter hletter
        exact ⟨_, _, rfl, by rw [hword], hafter⟩
      · split
        · rename_i hdigit
          obtain ⟨hdigits, hafter⟩ := hrun isDigit hdigit
          exact ⟨_, _, rfl, by rw [hdigits], hafter⟩
        · exact ⟨_, _, rfl, rfl, h.read⟩

/-- **The next token.** -/
theorem Represents.next (h : s.Represents source c) :
    s.next.1 = c.next.1 ∧ s.next.2.Represents source c.next.2 := by
  have hskip : (s.skipWhile isSpace).Represents source c.skipSpaces := h.skipWhile isSpace
  have hcurrent := hskip.current_eq
  unfold Scanner.next Cursor.next Cursor.next?
  simp only
  cases hrest : c.skipSpaces.rest with
  | nil =>
    have hnone : (s.skipWhile isSpace).current = none := by
      rw [hcurrent, Cursor.current, hrest]
      rfl
    simp only [hnone, firstLexeme]
    refine ⟨?_, hskip⟩
    rw [Cursor.endToken, hskip.position]
  | cons x rest =>
    have hsome : (s.skipWhile isSpace).current = some x := by
      rw [hcurrent, Cursor.current, hrest]
      rfl
    obtain ⟨kind, word, hfirst, htoken, hafter⟩ := hskip.dispatch hrest
    rw [hrest] at hfirst
    simp only [hsome, hfirst]
    exact ⟨htoken, hafter⟩

theorem kind_next_eq_eof_iff (h : s.Represents source c) :
    s.next.1.kind = .eof ↔ c.next? = none := by
  rw [h.next.1]
  unfold Cursor.next
  cases hnext : c.next? with
  | none => simp [Cursor.endToken]
  | some found =>
    obtain ⟨t, d⟩ := found
    obtain ⟨_, _, _, k, _, _, hlong, rfl, _⟩ := Cursor.next?_eq_some_iff.1 hnext
    simpa using hlong.known.kind_ne_eof

theorem Represents.tokens (h : s.Represents source c) :
    s.tokens.1 = c.tokens.1 ∧ s.tokens.2.Represents source c.tokens.2 := by
  induction c using Cursor.tokens_induct generalizing s with
  | done c hnone =>
    have hnext := h.next
    rw [Scanner.tokens, dif_pos ((kind_next_eq_eof_iff h).2 hnone), Cursor.tokens_of_none hnone]
    rw [Cursor.next, hnone] at hnext
    exact ⟨rfl, hnext.2⟩
  | step c t d hsome ih =>
    have hnext := h.next
    have hkind : ¬ s.next.1.kind = .eof := by simp [kind_next_eq_eof_iff h, hsome]
    rw [Scanner.tokens, dif_neg hkind, Cursor.tokens_of_some hsome]
    rw [Cursor.next, hsome] at hnext
    obtain ⟨htokens, hafter⟩ := ih hnext.2
    exact ⟨congrArg₂ _ hnext.1 htokens, hafter⟩

theorem Represents.take (h : s.Represents source c) (n : Nat) :
    (s.take n).1 = (c.take n).1 ∧ (s.take n).2.Represents source (c.take n).2 := by
  induction n generalizing s c with
  | zero => exact ⟨rfl, h⟩
  | succ n ih =>
    have hnext := h.next
    unfold Scanner.take Cursor.take
    cases hfound : c.next? with
    | none =>
      rw [Cursor.next, hfound] at hnext
      rw [if_pos ((kind_next_eq_eof_iff h).2 hfound)]
      exact ⟨rfl, hnext.2⟩
    | some found =>
      obtain ⟨t, d⟩ := found
      rw [Cursor.next, hfound] at hnext
      have hkind : ¬ s.next.1.kind = .eof := by simp [kind_next_eq_eof_iff h, hfound]
      obtain ⟨htokens, hafter⟩ := ih hnext.2
      rw [if_neg hkind]
      exact ⟨congrArg₂ _ hnext.1 htokens, hafter⟩

theorem Represents.tokenize (h : s.Represents source c) :
    s.tokenize.1 = c.tokenize.1 ∧ s.tokenize.2.Represents source c.tokenize.2 := by
  obtain ⟨htokens, hend⟩ := h.tokens
  obtain ⟨hlast, hafter⟩ := hend.next
  refine ⟨?_, hafter⟩
  show s.tokens.1 ++ [s.tokens.2.next.1] = c.tokens.1 ++ [c.tokens.2.next.1]
  rw [htokens, hlast]

/-! ## Requests -/

/-- **One request.** -/
theorem Represents.perform (h : s.Represents source c) (m : Move) :
    (s.perform m).1 = (c.perform m).1 ∧ (s.perform m).2.Represents source (c.perform m).2 := by
  cases m with
  | next => exact ⟨congrArg Reply.token h.next.1, h.next.2⟩
  | peek => exact ⟨congrArg Reply.character h.peek_eq, h⟩
  | read => exact ⟨rfl, h.read⟩
  | skip => exact ⟨rfl, h.skipWhile isSpace⟩
  | word => exact ⟨congrArg Reply.run (h.readWhile isLetter).1, (h.readWhile isLetter).2⟩
  | number => exact ⟨congrArg Reply.run (h.readWhile isDigit).1, (h.readWhile isDigit).2⟩
  | tokens => exact ⟨congrArg Reply.tokens h.tokens.1, h.tokens.2⟩
  | take n => exact ⟨congrArg Reply.tokens (h.take n).1, (h.take n).2⟩
  | tokenize => exact ⟨congrArg Reply.tokens h.tokenize.1, h.tokenize.2⟩

/-- **Every run of requests gives the same replies on both sides**, and leaves a scanner that
represents the cursor. -/
theorem performAll_represents (h : s.Represents source c) (moves : List Move) :
    (s.performAll moves).1 = (c.performAll moves).1 ∧
      (s.performAll moves).2.Represents source (c.performAll moves).2 := by
  induction moves generalizing s c with
  | nil => exact ⟨rfl, h⟩
  | cons m moves ih =>
    obtain ⟨hreply, hafter⟩ := h.perform m
    obtain ⟨hreplies, hlast⟩ := ih hafter
    exact ⟨congrArg₂ _ hreply hreplies, hlast⟩

/-- **After every run of requests the fields of a scanner fit together**: the character at its
index, the next index, and the position of a cursor that was asked the same. -/
theorem performAll_fields (source : List Char) (moves : List Move) :
    let s := ((start source).performAll moves).2
    let c := ((Cursor.start source).performAll moves).2
    s.source = source ∧ s.index = c.offset ∧ s.nextIndex = s.index + 1 ∧
      s.current = source[s.index]? ∧ s.peek = source[s.index + 1]? ∧ s.position = c.position ∧
      ((start source).performAll moves).1 = ((Cursor.start source).performAll moves).1 := by
  intro s c
  obtain ⟨hreplies, h⟩ := performAll_represents (start_represents source) moves
  refine ⟨h.whole, h.offset.symm, h.nextIndex, h.current, ?_, h.position.symm, hreplies⟩
  show s.source[s.nextIndex]? = _
  rw [h.whole, h.nextIndex]

end Scanner

/-- A scanner at the start of a source gives the tokens of the source. -/
theorem tokenize_eq_scanner (source : List Char) :
    (Scanner.start source).tokenize.1 = tokenize source :=
  (Scanner.start_represents source).tokenize.1

end Lexline
