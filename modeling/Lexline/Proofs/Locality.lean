import Lexline.Proofs.Movement

/-!
# Scans are local

A scan counts positions on and never looks at them; it does not see blanks in front of a lexeme;
and it looks one character ahead.

* `Carries` — changes of positions that counting respects.
* `tokens_carry` — **scanning from a changed position changes the positions of the tokens**, and
  nothing else.
* `tokens_skip` — blanks in front of the cursor have no say in what its tokens are.
* `next?_extend` — text added at the end does not change a token that something follows.
* `tokens_extend_blank` — blanks added at the end change nothing.
-/

namespace Lexline

/-- `Carries good f`: counting on keeps the positions `good` and respects the change `f` there. -/
structure Carries (good : Position → Prop) (f : Position → Position) : Prop where
  nextColumn : ∀ p, good p → good p.nextColumn ∧ f p.nextColumn = (f p).nextColumn
  nextLine : ∀ p, good p → good p.nextLine ∧ f p.nextLine = (f p).nextLine

/-- A token with its position changed. -/
def Token.carry (f : Position → Position) (t : Token) : Token :=
  ⟨t.kind, t.literal, t.position.map f⟩

namespace Cursor

/-- A cursor with its position changed. -/
def carry (f : Position → Position) (c : Cursor) : Cursor := ⟨c.rest, f c.position⟩

variable {good : Position → Prop} {f : Position → Position}

theorem read_carry (h : Carries good f) {c : Cursor} (hc : good c.position) :
    good c.read.position ∧ (c.carry f).read = c.read.carry f := by
  unfold read carry
  split
  · obtain ⟨hgood, heq⟩ := h.nextLine _ hc
    exact ⟨hgood, by rw [heq]⟩
  · obtain ⟨hgood, heq⟩ := h.nextColumn _ hc
    exact ⟨hgood, by rw [heq]⟩

theorem advance_carry (h : Carries good f) {c : Cursor} (hc : good c.position) (n : Nat) :
    good (c.advance n).position ∧ (c.carry f).advance n = (c.advance n).carry f := by
  induction n generalizing c with
  | zero => exact ⟨hc, rfl⟩
  | succ n ih =>
    obtain ⟨hgood, hread⟩ := read_carry h hc
    rw [advance, advance, hread]
    exact ih hgood

/-- The next token from a changed position. -/
theorem next?_carry (h : Carries good f) {c : Cursor} (hc : good c.position) :
    (c.next? = none → (c.carry f).next? = none) ∧
      ∀ t d, c.next? = some (t, d) →
        good d.position ∧ (c.carry f).next? = some (t.carry f, d.carry f) := by
  constructor
  · intro hnone
    have hblank : ∀ x ∈ c.rest, isSpace x = true := next?_eq_none_iff.1 hnone
    exact next?_eq_none_iff.2 hblank
  · intro t d hsome
    obtain ⟨lead, w, rest, k, hrest, hlead, hlong, rfl, rfl⟩ := next?_eq_some_iff.1 hsome
    obtain ⟨_, hstart⟩ := advance_carry h hc lead.length
    obtain ⟨hgood, hend⟩ := advance_carry h hc (lead.length + w.length)
    refine ⟨hgood, next?_eq_some_iff.2 ⟨lead, w, rest, k, hrest, hlead, hlong, ?_, hend.symm⟩⟩
    rw [hstart]
    rfl

/-- **Scanning from a changed position** changes the positions of the tokens. -/
theorem tokens_carry (h : Carries good f) {c : Cursor} (hc : good c.position) :
    (c.carry f).tokens.1 = c.tokens.1.map (Token.carry f) := by
  induction c using tokens_induct with
  | done c hnone =>
    rw [tokens_of_none hnone, tokens_of_none ((next?_carry h hc).1 hnone)]
    rfl
  | step c t d hsome ih =>
    obtain ⟨hgood, hnext⟩ := (next?_carry h hc).2 t d hsome
    rw [tokens_of_some hsome, tokens_of_some hnext, List.map_cons, ← ih hgood]

/-! ## Blanks in front -/

theorem next?_skip {c : Cursor} {lead rest : List Char} (hc : c.rest = lead ++ rest)
    (hlead : ∀ x ∈ lead, isSpace x = true) : (c.advance lead.length).next? = c.next? := by
  have hrest : (c.advance lead.length).rest = rest := by
    rw [advance_rest, hc]
    exact List.drop_left
  have hskip : (c.advance lead.length).skipSpaces = c.skipSpaces := by
    rw [skipSpaces_eq_advance, skipSpaces_eq_advance, hrest, hc,
      List.takeWhile_append_of_pos hlead, List.length_append, advance_add]
  unfold next?
  rw [hskip]

/-- Blanks in front of the cursor have no say in what its tokens are. -/
theorem tokens_skip {c : Cursor} {lead rest : List Char} (hc : c.rest = lead ++ rest)
    (hlead : ∀ x ∈ lead, isSpace x = true) : (c.advance lead.length).tokens.1 = c.tokens.1 := by
  have hnext := next?_skip hc hlead
  cases h : c.next? with
  | none => rw [tokens_of_none h, tokens_of_none (hnext.trans h)]
  | some found => rw [tokens_of_some h, tokens_of_some (hnext.trans h)]

/-! ## Text behind -/

/-- A cursor with more text at the end. -/
def extend (c : Cursor) (more : List Char) : Cursor := ⟨c.rest ++ more, c.position⟩

/-- Short of the last character, moving does not notice text added at the end. -/
theorem advance_extend {c : Cursor} {n : Nat} (hn : n < c.rest.length) (more : List Char) :
    (c.extend more).advance n = (c.advance n).extend more := by
  induction n generalizing c with
  | zero => rfl
  | succ n ih =>
    -- whether `x` ends a line depends on `y` at most, and `y` is there without the added text
    obtain ⟨x, y, rest, hrest⟩ : ∃ x y rest, c.rest = x :: y :: rest := by
      match hc : c.rest, hn with
      | x :: y :: rest, _ => exact ⟨x, y, rest, rfl⟩
    have hread : (c.extend more).read = c.read.extend more := by
      simp [read, extend, hrest, endsLine]
    have hlt : n < c.read.rest.length := by
      rw [hrest, List.length_cons] at hn
      simp only [read, hrest, List.tail_cons]
      omega
    rw [advance, advance, hread, ih hlt]

/-- **A token that something follows** stays when text is added at the end. -/
theorem next?_extend {c d : Cursor} {t : Token} (h : c.next? = some (t, d)) (hd : d.rest ≠ [])
    (more : List Char) : (c.extend more).next? = some (t, d.extend more) := by
  obtain ⟨lead, w, rest, k, hrest, hlead, hlong, rfl, rfl⟩ := next?_eq_some_iff.1 h
  rw [rest_after hrest] at hd
  obtain ⟨x, tail, rfl⟩ := List.exists_cons_of_ne_nil hd
  have hlt : lead.length + w.length < c.rest.length := by
    rw [hrest]
    simp only [List.length_append, List.length_cons]
    omega
  refine next?_eq_some_iff.2 ⟨lead, w, x :: (tail ++ more), k, ?_, hlead, hlong.of_next _, ?_, ?_⟩
  · simp [extend, hrest]
  · rw [advance_extend (by omega)]; rfl
  · rw [advance_extend hlt]

/-- **Blanks behind the text** have no say in what the tokens are. -/
theorem tokens_extend_blank {more : List Char} (hmore : ∀ x ∈ more, isSpace x = true)
    (c : Cursor) : (c.extend more).tokens.1 = c.tokens.1 := by
  have hblank : ∀ d : Cursor, (∀ x ∈ d.rest, isSpace x = true) → d.tokens.1 = [] := by
    intro d hd
    rw [tokens_of_none (next?_eq_none_iff.2 hd)]
  induction c using tokens_induct with
  | done c hnone =>
    have hc := next?_eq_none_iff.1 hnone
    rw [hblank c hc]
    refine hblank _ (fun x hx => ?_)
    rcases List.mem_append.1 hx with hx | hx
    · exact hc x hx
    · exact hmore x hx
  | step c t d hsome ih =>
    by_cases hd : d.rest = []
    · -- the last token: what follows it is blank, with the added text or without
      obtain ⟨lead, w, rest, k, hrest, hlead, hlong, rfl, rfl⟩ := next?_eq_some_iff.1 hsome
      obtain rfl : rest = [] := (rest_after hrest).symm.trans hd
      rw [List.append_nil] at hrest hlong
      have hpos : 0 < w.length := hlong.known.length_pos
      have hlt : lead.length < c.rest.length := by
        rw [hrest, List.length_append]
        omega
      have hmoved : (c.extend more).rest = lead ++ (w ++ more) := by simp [extend, hrest]
      have hnext : (c.extend more).next? =
          some (⟨k, String.ofList w, some (c.advance lead.length).position⟩,
            (c.extend more).advance (lead.length + w.length)) := by
        refine next?_eq_some_iff.2
          ⟨lead, w, more, k, hmoved, hlead, hlong.of_blank hmore, ?_, rfl⟩
        rw [advance_extend hlt]
        rfl
      have hlast : (c.advance (lead.length + w.length)).tokens.1 = [] :=
        hblank _ (by rw [hd]; simp)
      have hadded : ((c.extend more).advance (lead.length + w.length)).tokens.1 = [] :=
        hblank _ (by rw [rest_after hmoved]; exact hmore)
      rw [tokens_of_some hnext, tokens_of_some hsome, hlast, hadded]
    · rw [tokens_of_some (next?_extend hsome hd more), tokens_of_some hsome, ih]

end Cursor

end Lexline
