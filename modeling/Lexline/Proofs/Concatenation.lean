import Lexline.Proofs.RoundTrip

/-!
# Tokens of two texts put together

Where two texts meet, the last lexeme of the first one may go on into the second.  That is the only
thing that can happen there.

* `Opens.grows_iff` — which lexemes can go on, and with which characters.
* `LongestLexeme.append_iff` — a lexeme ends where it cannot go on.
* `Cursor.Fuses` — the last lexeme under a cursor goes on into a text.
* `tokens_apart`, `tokens_fused` — **the tokens of a text with more behind it**: all tokens of both,
  or all but the last one of the first, and a longer one in its place.
* `tokenize_append_iff` — **the tokens of a concatenation are those of its parts, one after the
  other, exactly if no lexeme goes on** from one part into the other.
-/

namespace Lexline

/-- The operators that an equals sign after them would make into others. -/
def bareOperators : List Kind := [.assign, .bang, .lt, .gt]

/-- The offset behind the last character of a token. -/
def Token.stop (t : Token) : Option Int := t.position.map (fun p => p.offset + t.literal.length)

/-! ## Lexemes that go on -/

namespace Opens

variable {k : Kind} {c : Char} {w : List Char}

/-- The characters of a lexeme are all letters, or all digits, or none of them is either. -/
theorem class_cases (h : Opens k c w) :
    (∀ x ∈ c :: w, isLetter x = true) ∨ (∀ x ∈ c :: w, isDigit x = true) ∨
      ∀ x ∈ c :: w, isLetter x = false ∧ isDigit x = false := by
  cases h with
  | alone hc => exact Or.inr (Or.inr (by simpa using (pairedKinds?_apart hc).2))
  | paired hc =>
    have hequals : isLetter '=' = false ∧ isDigit '=' = false := by decide
    exact Or.inr (Or.inr (by simpa using ⟨(pairedKinds?_apart hc).2, hequals⟩))
  | solo hc => exact Or.inr (Or.inr (by simpa using (soloKind?_apart hc).2))
  | word hc letters => exact Or.inl (List.forall_mem_cons.2 ⟨hc, letters⟩)
  | number hc digits => exact Or.inr (Or.inl (List.forall_mem_cons.2 ⟨hc, digits⟩))
  | foreign _ hc => exact Or.inr (Or.inr (by simpa using (startsLexeme_eq_false_iff.1 hc).2.2))

/-- A lexeme with a letter in it is a word. -/
theorem letters_of_mem (h : Opens k c w) {y : Char} (hy : y ∈ c :: w)
    (hletter : isLetter y = true) :
    ∀ x ∈ c :: w, isLetter x = true := by
  rcases h.class_cases with hall | hall | hall
  · exact hall
  · rw [(isDigit_apart (hall y hy)).2.2] at hletter
    cases hletter
  · rw [(hall y hy).1] at hletter
    cases hletter

/-- A lexeme with a digit in it is a number. -/
theorem digits_of_mem (h : Opens k c w) {y : Char} (hy : y ∈ c :: w) (hdigit : isDigit y = true) :
    ∀ x ∈ c :: w, isDigit x = true := by
  rcases h.class_cases with hall | hall | hall
  · rw [isDigit_of_isLetter (hall y hy)] at hdigit
    cases hdigit
  · exact hall
  · rw [(hall y hy).2] at hdigit
    cases hdigit

/-- A bare operator is a character of the table of paired operators, by itself. -/
theorem of_bare (h : Opens k c w) (hk : k ∈ bareOperators) :
    w = [] ∧ ∃ k', pairedKinds? c = some (k, k') := by
  cases h with
  | alone hc => exact ⟨rfl, _, hc⟩
  | paired hc =>
    have hall : ∀ e ∈ pairedOperators, e.2.2 ∉ bareOperators := by decide
    exact absurd hk (hall _ (pairedKinds?_eq_some_iff.1 hc))
  | solo hc =>
    have hall : ∀ e ∈ soloTokens, e.2 ∉ bareOperators := by decide
    exact absurd hk (hall _ (soloKind?_eq_some_iff.1 hc))
  | word hc letters =>
    have hall : ∀ e ∈ keywords, e.2 ∉ bareOperators := by decide
    rcases wordKind_cases (String.ofList (c :: w)) with hmem | ⟨_, hident⟩
    · exact absurd hk (hall _ hmem)
    · rw [hident] at hk
      exact absurd hk (by decide)
  | number => exact absurd hk (by decide)
  | foreign => exact absurd hk (by decide)

/-- **The lexemes that can go on**: words with a letter, numbers with a digit, and bare operators
with an equals sign. -/
theorem grows_iff (h : Opens k c w) (x : Char) :
    (∃ k', Opens k' c (w ++ [x])) ↔
      (∃ y ∈ (c :: w).getLast?, isLetter y = true ∧ isLetter x = true) ∨
      (∃ y ∈ (c :: w).getLast?, isDigit y = true ∧ isDigit x = true) ∨
      (k ∈ bareOperators ∧ x = '=') := by
  have hlast : (c :: w).getLast? = some ((c :: w).getLast (by simp)) :=
    List.getLast?_eq_some_getLast _
  have hmem := List.getLast_mem (l := c :: w) (by simp)
  constructor
  · rintro ⟨k', h'⟩
    cases h with
    | alone hc =>
      rcases h'.of_paired hc with ⟨_, hnil⟩ | ⟨_, heq⟩
      · cases hnil
      · have hall : ∀ e ∈ pairedOperators, e.2.1 ∈ bareOperators := by decide
        exact Or.inr (Or.inr ⟨hall _ (pairedKinds?_eq_some_iff.1 hc), by simpa using heq⟩)
    | paired hc =>
      rcases h'.of_paired hc with ⟨_, hnil⟩ | ⟨_, heq⟩
      · cases hnil
      · cases heq
    | solo hc => exact absurd (h'.of_solo hc).2 (by simp)
    | word hc letters =>
      have hall : ∀ x ∈ c :: w, isLetter x = true := List.forall_mem_cons.2 ⟨hc, letters⟩
      exact Or.inl ⟨_, hlast, hall _ hmem, (h'.of_letter hc).2 x (by simp)⟩
    | number hc digits =>
      have hall : ∀ x ∈ c :: w, isDigit x = true := List.forall_mem_cons.2 ⟨hc, digits⟩
      exact Or.inr (Or.inl ⟨_, hlast, hall _ hmem, (h'.of_digit hc).2 x (by simp)⟩)
    | foreign _ hc => exact absurd (h'.of_foreign hc).2 (by simp)
  · rintro (⟨y, hy, hletter, hx⟩ | ⟨y, hy, hdigit, hx⟩ | ⟨hk, rfl⟩)
    · obtain ⟨hc, letters⟩ :=
        List.forall_mem_cons.1 (h.letters_of_mem (List.mem_of_getLast? hy) hletter)
      refine ⟨_, .word hc ?_⟩
      simpa [or_imp, forall_and] using ⟨letters, hx⟩
    · obtain ⟨hc, digits⟩ :=
        List.forall_mem_cons.1 (h.digits_of_mem (List.mem_of_getLast? hy) hdigit)
      refine ⟨_, .number hc ?_⟩
      simpa [or_imp, forall_and] using ⟨digits, hx⟩
    · obtain ⟨rfl, k', hc⟩ := h.of_bare hk
      exact ⟨k', .paired hc⟩

end Opens

theorem InLexicon.grows_iff {k : Kind} {w : List Char} (h : InLexicon k w) (x : Char) :
    (∃ k', InLexicon k' (w ++ [x])) ↔
      (∃ y ∈ w.getLast?, isLetter y = true ∧ isLetter x = true) ∨
      (∃ y ∈ w.getLast?, isDigit y = true ∧ isDigit x = true) ∨
      (k ∈ bareOperators ∧ x = '=') := by
  obtain ⟨c, v, rfl, hopens⟩ := h.exists_cons
  rw [← hopens.grows_iff x, List.cons_append]
  exact exists_congr fun _ => inLexicon_cons_iff

/-- **A lexeme ends where it cannot go on** with the next character. -/
theorem LongestLexeme.append_iff {k : Kind} {w more : List Char} (known : InLexicon k w) :
    LongestLexeme (w ++ more) k w ↔ ¬ ∃ x ∈ more.head?, ∃ k', InLexicon k' (w ++ [x]) := by
  constructor
  · rintro h ⟨x, hx, k', hgrown⟩
    obtain ⟨rest, rfl⟩ := List.head?_eq_some_iff.1 hx
    have hle := h.longest k' (w ++ [x]) hgrown ⟨rest, by simp⟩
    rw [List.length_append, List.length_singleton] at hle
    omega
  · intro h
    refine .of_append known ?_
    intro k' x v hmem hpre
    obtain ⟨rest, rfl⟩ := hpre
    have hsplit : w ++ x :: v = (w ++ [x]) ++ v := by simp
    exact h ⟨x, rfl, (hsplit ▸ hmem).of_append (by simp)⟩

/-- Where a lexeme can go on, the longest one is longer. -/
theorem LongestLexeme.exists_grown {k : Kind} {w more : List Char} (known : InLexicon k w)
    (h : ∃ x ∈ more.head?, ∃ k', InLexicon k' (w ++ [x])) :
    ∃ k' v, LongestLexeme (w ++ more) k' v ∧ w.length < v.length := by
  obtain ⟨x, hx, kx, hgrown⟩ := h
  obtain ⟨rest, rfl⟩ := List.head?_eq_some_iff.1 hx
  obtain ⟨c, w, rfl, hopens⟩ := known.exists_cons
  obtain ⟨k', v, _, hlong⟩ := firstLexeme_longest hopens.isSpace_eq_false (w ++ x :: rest)
  refine ⟨k', c :: v, hlong, ?_⟩
  have hle := hlong.longest kx (c :: w ++ [x]) hgrown ⟨rest, by simp⟩
  rw [List.length_append, List.length_singleton] at hle
  omega

/-- The last character of two texts is that of the second one, if it has any. -/
theorem getLast?_append {a b : List Char} (h : b ≠ []) : (a ++ b).getLast? = b.getLast? := by
  rw [List.getLast?_append, List.getLast?_eq_some_getLast h]
  rfl

namespace Cursor

/-! ## The last lexeme under a cursor -/

/-- `c.Fuses more`: the last lexeme under the cursor ends where the text ends, and goes on if the
text goes on with `more`. -/
def Fuses (c : Cursor) (more : List Char) : Prop :=
  (∃ x ∈ c.rest.getLast?, ∃ y ∈ more.head?, isLetter x = true ∧ isLetter y = true) ∨
  (∃ x ∈ c.rest.getLast?, ∃ y ∈ more.head?, isDigit x = true ∧ isDigit y = true) ∨
  (more.head? = some '=' ∧ ∃ t ∈ c.tokens.1.getLast?, t.kind ∈ bareOperators ∧
    t.stop = some (c.position.offset + c.rest.length))

variable {c d : Cursor} {t : Token} {more : List Char}

/-- A token stops where the cursor stands after it. -/
theorem next?_stop (h : c.next? = some (t, d)) : t.stop = some d.position.offset := by
  obtain ⟨lead, w, rest, k, _, _, _, rfl, rfl⟩ := next?_eq_some_iff.1 h
  simp only [Token.stop, Option.map_some, advance_offset, String.length_ofList]
  congr 1
  push_cast
  omega

/-- No token leads the cursor past the end of the text. -/
theorem next?_end (h : c.next? = some (t, d)) :
    d.position.offset + d.rest.length = c.position.offset + c.rest.length := by
  obtain ⟨lead, w, rest, k, hrest, _, _, rfl, rfl⟩ := next?_eq_some_iff.1 h
  rw [rest_after hrest, advance_offset, hrest]
  simp only [List.length_append]
  push_cast
  omega

/-- The token that nothing follows is the last one. -/
theorem tokens_of_last (h : c.next? = some (t, d)) (hd : d.rest = []) : c.tokens.1 = [t] := by
  have hnone : ∀ x ∈ d.rest, isSpace x = true := by rw [hd]; simp
  rw [tokens_of_some h, tokens_blank hnone]

theorem not_fuses_of_blank (h : c.next? = none) : ¬ c.Fuses more := by
  have hlast : ∀ x ∈ c.rest.getLast?, isLetter x = false ∧ isDigit x = false := by
    intro x hx
    exact (isSpace_apart (next?_eq_none_iff.1 h x (List.mem_of_getLast? hx))).2.2
  rintro (⟨x, hx, _, _, hletter, _⟩ | ⟨x, hx, _, _, hdigit, _⟩ | ⟨_, t, ht, _⟩)
  · rw [(hlast x hx).1] at hletter
    cases hletter
  · rw [(hlast x hx).2] at hdigit
    cases hdigit
  · rw [tokens_of_none h] at ht
    cases ht

/-- A token that something follows has no say in whether the last lexeme goes on. -/
theorem fuses_of_next (h : c.next? = some (t, d)) (hd : d.rest ≠ []) :
    c.Fuses more ↔ d.Fuses more := by
  have hlast : c.rest.getLast? = d.rest.getLast? := by
    obtain ⟨lead, w, rest, k, hrest, _, _, rfl, rfl⟩ := next?_eq_some_iff.1 h
    rw [rest_after hrest] at hd ⊢
    rw [hrest, ← List.append_assoc, getLast?_append hd]
  have hend := next?_end h
  have hoperator : (∃ u ∈ c.tokens.1.getLast?, u.kind ∈ bareOperators ∧
      u.stop = some (c.position.offset + c.rest.length)) ↔
      ∃ u ∈ d.tokens.1.getLast?, u.kind ∈ bareOperators ∧
        u.stop = some (d.position.offset + d.rest.length) := by
    rw [hend, tokens_of_some h]
    cases hts : d.tokens.1 with
    | cons u ts => rw [List.getLast?_cons_cons]
    | nil =>
      -- the token is the last one, but it stops before the end
      have hpos : 0 < d.rest.length := List.length_pos_iff.2 hd
      have hstop := next?_stop h
      constructor
      · rintro ⟨u, hu, _, hends⟩
        obtain rfl : t = u := by simpa using hu
        rw [hstop, ← hend] at hends
        have hsame := Option.some.inj hends
        omega
      · rintro ⟨u, hu, _⟩
        cases hu
  unfold Fuses
  rw [hlast, hoperator]

/-- The last token goes on exactly if its lexeme does. -/
theorem fuses_of_last {lead w : List Char} {k : Kind} (hrest : c.rest = lead ++ w)
    (hlead : ∀ x ∈ lead, isSpace x = true) (known : InLexicon k w) :
    c.Fuses more ↔ ∃ x ∈ more.head?, ∃ k', InLexicon k' (w ++ [x]) := by
  have hlong : LongestLexeme (w ++ []) k w := (LongestLexeme.append_iff known).2 (by simp)
  have hnext := next?_eq_some_iff.2 ⟨lead, w, [], k, by simpa using hrest, hlead, hlong, rfl, rfl⟩
  have hdone : (c.advance (lead.length + w.length)).rest = [] := rest_after (by simpa using hrest)
  have hne : w ≠ [] := List.length_pos_iff.1 known.length_pos
  have hlast : c.rest.getLast? = w.getLast? := by
    rw [hrest, getLast?_append hne]
  have hend := next?_end hnext
  rw [hdone, List.length_nil, Int.natCast_zero, Int.add_zero] at hend
  have hstop := next?_stop hnext
  rw [hend] at hstop
  have htokens := tokens_of_last hnext hdone
  have hoperator : (∃ u ∈ c.tokens.1.getLast?, u.kind ∈ bareOperators ∧
      u.stop = some (c.position.offset + c.rest.length)) ↔ k ∈ bareOperators := by
    rw [htokens]
    constructor
    · rintro ⟨u, hu, hkind, _⟩
      obtain rfl := Option.some.inj hu
      exact hkind
    · intro hk
      exact ⟨_, rfl, hk, hstop⟩
  unfold Fuses
  rw [hlast, hoperator]
  cases hhead : more.head? with
  | none => simp
  | some x =>
    have hgrows := known.grows_iff x
    simp only [Option.mem_some_iff, Option.some.injEq, exists_eq_left'] at hgrows ⊢
    rw [hgrows, and_comm (a := x = '=')]

/-! ## Tokens with more text behind them -/

theorem eq_mk {e : Cursor} {text : List Char} (h : e.rest = text) : e = ⟨text, e.position⟩ := by
  rw [← h]

/-- **Where nothing fuses**, the tokens of a text and those of what is behind it. -/
theorem tokens_apart (c : Cursor) (hfree : ¬ c.Fuses more) :
    ∃ p, (c.extend more).tokens.1 = c.tokens.1 ++ (⟨more, p⟩ : Cursor).tokens.1 := by
  induction c using tokens_induct with
  | done c hnone =>
    have hrest : (c.extend more).rest = c.rest ++ more := rfl
    have hmoved : ((c.extend more).advance c.rest.length).rest = more := by
      rw [advance_rest, hrest, List.drop_left]
    refine ⟨((c.extend more).advance c.rest.length).position, ?_⟩
    rw [tokens_of_none hnone, ← tokens_skip hrest (next?_eq_none_iff.1 hnone), List.nil_append,
      ← eq_mk hmoved]
  | step c t d hsome ih =>
    by_cases hd : d.rest = []
    · obtain ⟨lead, w, rest, k, hrest, hlead, hlong, rfl, rfl⟩ := next?_eq_some_iff.1 hsome
      obtain rfl : rest = [] := (rest_after hrest).symm.trans hd
      rw [List.append_nil] at hrest hlong
      have hapart : LongestLexeme (w ++ more) k w :=
        (LongestLexeme.append_iff hlong.known).2
          (fun h => hfree ((fuses_of_last hrest hlead hlong.known).2 h))
      have hmoved : (c.extend more).rest = lead ++ (w ++ more) := by simp [extend, hrest]
      have hpos : 0 < w.length := hlong.known.length_pos
      have hlt : lead.length < c.rest.length := by
        rw [hrest, List.length_append]
        omega
      have hnext := next?_eq_some_iff.2 ⟨lead, w, more, k, hmoved, hlead, hapart, rfl, rfl⟩
      refine ⟨((c.extend more).advance (lead.length + w.length)).position, ?_⟩
      rw [tokens_of_some hnext, tokens_of_last hsome hd, advance_extend hlt,
        ← eq_mk (rest_after hmoved)]
      rfl
    · obtain ⟨p, hp⟩ := ih (fun h => hfree ((fuses_of_next hsome hd).2 h))
      refine ⟨p, ?_⟩
      rw [tokens_of_some (next?_extend hsome hd more), tokens_of_some hsome, hp]
      rfl

/-- **Where the last lexeme fuses**, a longer one stands in its place, and what stands before it
stays. -/
theorem tokens_fused (c : Cursor) (hfuses : c.Fuses more) : ∃ front last grown after,
    c.tokens.1 = front ++ [last] ∧ (c.extend more).tokens.1 = front ++ grown :: after ∧
      last.literal.length < grown.literal.length := by
  induction c using tokens_induct with
  | done c hnone => exact absurd hfuses (not_fuses_of_blank hnone)
  | step c t d hsome ih =>
    by_cases hd : d.rest = []
    · obtain ⟨lead, w, rest, k, hrest, hlead, hlong, rfl, rfl⟩ := next?_eq_some_iff.1 hsome
      obtain rfl : rest = [] := (rest_after hrest).symm.trans hd
      rw [List.append_nil] at hrest hlong
      obtain ⟨k', v, hgrown, hlt⟩ := LongestLexeme.exists_grown hlong.known
        ((fuses_of_last hrest hlead hlong.known).1 hfuses)
      obtain ⟨after, hafter⟩ := hgrown.starts
      have hmoved : (c.extend more).rest = lead ++ (v ++ after) := by
        simp [extend, hrest, hafter]
      rw [← hafter] at hgrown
      have hnext := next?_eq_some_iff.2 ⟨lead, v, after, k', hmoved, hlead, hgrown, rfl, rfl⟩
      refine ⟨[], _, _, _, tokens_of_last hsome hd, by rw [tokens_of_some hnext]; rfl, ?_⟩
      simpa using hlt
    · obtain ⟨front, last, grown, after, htokens, hmore, hlt⟩ :=
        ih ((fuses_of_next hsome hd).1 hfuses)
      refine ⟨t :: front, last, grown, after, ?_, ?_, hlt⟩
      · rw [tokens_of_some hsome, htokens]
        rfl
      · rw [tokens_of_some (next?_extend hsome hd more), hmore]
        rfl

/-- What a scan shows of tokens besides their positions depends on the text only. -/
theorem tokens_face {c d : Cursor} (h : c.rest = d.rest) :
    c.tokens.1.map Token.face = d.tokens.1.map Token.face := by
  induction c using tokens_induct generalizing d with
  | done c hnone =>
    have hblank : ∀ x ∈ d.rest, isSpace x = true := h ▸ next?_eq_none_iff.1 hnone
    rw [tokens_of_none hnone, tokens_blank hblank]
  | step c t e hsome ih =>
    obtain ⟨lead, w, rest, k, hrest, hlead, hlong, rfl, rfl⟩ := next?_eq_some_iff.1 hsome
    have hnext := next?_eq_some_iff.2 ⟨lead, w, rest, k, h ▸ hrest, hlead, hlong, rfl, rfl⟩
    have htail := ih (d := d.advance (lead.length + w.length))
      (by rw [rest_after hrest, rest_after (h ▸ hrest)])
    rw [tokens_of_some hsome, tokens_of_some hnext, List.map_cons, List.map_cons, htail]
    rfl

end Cursor

/-! ## Whole texts -/

/-- **The tokens of a concatenation** are those of its parts, one after the other, unless the first
part ends and the second starts with letters, or with digits, or the first ends in an operator that
is another one before an equals sign, and the second starts with one.  In all cases the tokens of
the first part stay where they are, except for the last one. -/
theorem tokenize_append_iff (a b : List Char) :
    (sameTokens (tokenize (a ++ b)).dropLast
        ((tokenize a).dropLast ++ (tokenize b).dropLast) = true ↔
      ¬ (∃ x ∈ a.getLast?, ∃ y ∈ b.head?, isLetter x = true ∧ isLetter y = true) ∧
      ¬ (∃ x ∈ a.getLast?, ∃ y ∈ b.head?, isDigit x = true ∧ isDigit y = true) ∧
      ¬ (b.head? = some '=' ∧ ∃ t ∈ (tokenize a).dropLast.getLast?,
        t.kind ∈ [.assign, .bang, .lt, .gt] ∧ t.stop = some (a.length : Int))) ∧
    (tokenize a).dropLast.dropLast <+: tokenize (a ++ b) := by
  have hwhole : ((Cursor.start a).extend b).tokens.1 = scan (a ++ b) := rfl
  have hfuses : (Cursor.start a).Fuses b ↔
      (∃ x ∈ a.getLast?, ∃ y ∈ b.head?, isLetter x = true ∧ isLetter y = true) ∨
      (∃ x ∈ a.getLast?, ∃ y ∈ b.head?, isDigit x = true ∧ isDigit y = true) ∨
      (b.head? = some '=' ∧ ∃ t ∈ (scan a).getLast?,
        t.kind ∈ [.assign, .bang, .lt, .gt] ∧ t.stop = some (a.length : Int)) := by
    have hend : (Cursor.start a).position.offset + (Cursor.start a).rest.length = a.length :=
      Int.zero_add _
    unfold Cursor.Fuses
    rw [hend]
    rfl
  obtain ⟨last, _, htokens⟩ := tokenize_eq_scan (a ++ b)
  rw [← not_or, ← not_or, tokenize_dropLast, tokenize_dropLast, tokenize_dropLast, ← hfuses,
    htokens, ← hwhole, sameTokens_iff, List.map_append]
  by_cases h : (Cursor.start a).Fuses b
  · obtain ⟨front, tail, grown, after, hscan, hmore, hlt⟩ := Cursor.tokens_fused _ h
    have hscan' : scan a = front ++ [tail] := hscan
    rw [hmore, hscan']
    refine ⟨iff_of_false ?_ (fun hfree => hfree h), ?_⟩
    · -- the two lists agree up to the last token of the first part, and there they differ
      intro hsame
      rw [List.map_append, List.map_append, List.append_assoc] at hsame
      have hrest := List.append_cancel_left hsame
      have hface : grown.face = tail.face := (List.cons.inj hrest).1
      have hliteral : grown.literal = tail.literal := congrArg Prod.snd hface
      rw [hliteral] at hlt
      exact Nat.lt_irrefl _ hlt
    · rw [List.dropLast_concat, List.append_assoc]
      exact List.prefix_append _ _
  · obtain ⟨p, hp⟩ := Cursor.tokens_apart _ h
    have hface : (⟨b, p⟩ : Cursor).tokens.1.map Token.face = (scan b).map Token.face :=
      Cursor.tokens_face rfl
    rw [hp, List.map_append, hface]
    refine ⟨iff_of_true rfl h, ?_⟩
    rw [List.append_assoc]
    exact (List.dropLast_prefix _).trans (List.prefix_append _ _)

/-- After two equals signs another one is apart, and after three it is not. -/
example :
    sameTokens (tokenize "===".toList).dropLast
      ((tokenize "==".toList).dropLast ++ (tokenize "=".toList).dropLast) = true ∧
    sameTokens (tokenize "====".toList).dropLast
      ((tokenize "===".toList).dropLast ++ (tokenize "=".toList).dropLast) = false := by
  cbv

end Lexline
