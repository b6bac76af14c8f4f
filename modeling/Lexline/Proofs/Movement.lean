import Lexline.Cursor.Move
import Lexline.Proofs.Escapes
import Lexline.Proofs.Lexicon

/-!
# Movement of a cursor

Whatever is asked of a cursor, it only moves forward over some number of characters.

* `next?_eq_some_iff`, `next?_eq_none_iff` — the next token is blanks and then a longest lexeme;
  there is none exactly if only blanks are left.
* `tokens_induct` — induction along the tokens of a cursor.
* `tokens_spelled`, `tokens_position` — every token is spelled out in the text, from a character
  of it on.
* `tokenize_eq` — the tokens, then the end token at the end of the text.
* `performAll_eq_advance` — **every run of requests moves the cursor by a number of characters**,
  and does nothing else to it.
-/

namespace Lexline

namespace Cursor

/-! ## Several characters at once -/

theorem advance_add (c : Cursor) (m n : Nat) : c.advance (m + n) = (c.advance m).advance n := by
  induction m generalizing c with
  | zero => rw [Nat.zero_add]; rfl
  | succ m ih => rw [Nat.add_right_comm]; exact ih c.read

theorem advance_succ (c : Cursor) (n : Nat) : c.advance (n + 1) = (c.advance n).read :=
  advance_add c n 1

theorem read_offset (c : Cursor) : c.read.position.offset = c.position.offset + 1 := by
  unfold read
  split <;> rfl

theorem advance_offset (c : Cursor) (n : Nat) :
    (c.advance n).position.offset = c.position.offset + n := by
  induction n with
  | zero => simp [advance]
  | succ n ih => rw [advance_succ, read_offset, ih]; push_cast; omega

theorem skipSpaces_eq_advance (c : Cursor) :
    c.skipSpaces = c.advance (c.rest.takeWhile isSpace).length := rfl

/-! ## The next token -/

theorem head_dropWhile_blanks (text : List Char) :
    ∀ x ∈ (text.dropWhile isSpace).head?, isSpace x = false := by
  intro x hx
  have hnot := List.head?_dropWhile_not isSpace text
  rw [Option.mem_def.1 hx] at hnot
  exact hnot

/-- **The next token**: blanks, then the longest lexeme. -/
theorem next?_eq_some_iff {c d : Cursor} {t : Token} :
    c.next? = some (t, d) ↔ ∃ lead w rest k, c.rest = lead ++ (w ++ rest) ∧
      (∀ x ∈ lead, isSpace x = true) ∧ LongestLexeme (w ++ rest) k w ∧
      t = ⟨k, String.ofList w, some (c.advance lead.length).position⟩ ∧
      d = c.advance (lead.length + w.length) := by
  have hsplit : c.rest = c.rest.takeWhile isSpace ++ c.rest.dropWhile isSpace :=
    List.takeWhile_append_dropWhile.symm
  have hhead := head_dropWhile_blanks c.rest
  constructor
  · intro h
    unfold next? at h
    simp only [skipSpaces_rest] at h
    split at h
    · cases h
    · rename_i kind word hfirst
      cases h
      have hlong := (firstLexeme_eq_some_iff hhead).1 hfirst
      obtain ⟨rest, hrest⟩ := hlong.starts
      refine ⟨c.rest.takeWhile isSpace, word, rest, kind, by rw [hrest]; exact hsplit,
        fun _ => List.mem_takeWhile_imp, by rw [hrest]; exact hlong, rfl, ?_⟩
      rw [skipSpaces_eq_advance, advance_add]
  · rintro ⟨lead, w, rest, k, hrest, hlead, hlong, rfl, rfl⟩
    obtain ⟨htake, hdrop⟩ := Text.takeWhile_run hlead hlong.head_blank
    have hfirst := (firstLexeme_eq_some_iff hlong.head_blank).2 hlong
    unfold next?
    simp only [skipSpaces_rest, hrest, hdrop, hfirst]
    rw [skipSpaces_eq_advance, hrest, htake, advance_add]

/-- There is no next token exactly if only blanks are left. -/
theorem next?_eq_none_iff {c : Cursor} :
    c.next? = none ↔ ∀ x ∈ c.rest, isSpace x = true := by
  have hdrop : c.rest.dropWhile isSpace = [] ↔ ∀ x ∈ c.rest, isSpace x = true := by
    exact List.dropWhile_eq_nil_iff
  rw [← hdrop]
  unfold next?
  simp only [skipSpaces_rest]
  cases htext : c.rest.dropWhile isSpace with
  | nil => simp [firstLexeme]
  | cons x rest =>
    have hx : isSpace x = false := head_dropWhile_blanks c.rest x (by rw [htext]; rfl)
    obtain ⟨k, w, hfirst, _⟩ := firstLexeme_longest hx rest
    simp [hfirst]

theorem rest_after {c : Cursor} {lead w rest : List Char} (h : c.rest = lead ++ (w ++ rest)) :
    (c.advance (lead.length + w.length)).rest = rest := by
  rw [advance_rest, h, ← List.append_assoc]
  exact List.drop_left' (by simp)

/-! ## All tokens -/

theorem tokens_of_none {c : Cursor} (h : c.next? = none) : c.tokens = ([], c.skipSpaces) := by
  rw [tokens]
  split
  · rfl
  · rename_i hsome; rw [h] at hsome; cases hsome

theorem tokens_of_some {c d : Cursor} {t : Token} (h : c.next? = some (t, d)) :
    c.tokens = (t :: d.tokens.1, d.tokens.2) := by
  rw [tokens]
  split
  · rename_i hnone; rw [h] at hnone; cases hnone
  · rename_i t' d' hsome
    rw [h] at hsome
    cases hsome
    rfl

/-- Induction along the tokens of a cursor. -/
theorem tokens_induct {motive : Cursor → Prop} (done : ∀ c, c.next? = none → motive c)
    (step : ∀ c t d, c.next? = some (t, d) → motive d → motive c) (c : Cursor) : motive c := by
  induction c using tokens.induct with
  | case1 c h => exact done c h
  | case2 c t d h _ _ _ ih => exact step c t d h ih

/-- After all tokens the cursor stands at the end of the text. -/
theorem tokens_snd (c : Cursor) : c.tokens.2 = c.advance c.rest.length := by
  induction c using tokens_induct with
  | done c h =>
    rw [tokens_of_none h, skipSpaces_eq_advance,
      List.takeWhile_eq_self_iff.2 (next?_eq_none_iff.1 h)]
  | step c t d h ih =>
    obtain ⟨lead, w, rest, k, hrest, _, _, _, rfl⟩ := next?_eq_some_iff.1 h
    rw [tokens_of_some h, ih, ← advance_add, advance_rest, List.length_drop]
    congr 1
    have hle : lead.length + w.length ≤ c.rest.length := by
      rw [hrest]; simp only [List.length_append]; omega
    omega

/-- **Every token is spelled out in the text**, from the character on at which it stands. -/
theorem tokens_spelled {c : Cursor} {t : Token} (ht : t ∈ c.tokens.1) :
    ∃ n < c.rest.length, t.position = some (c.advance n).position ∧
      t.literal.toList <+: c.rest.drop n := by
  induction c using tokens_induct with
  | done c h => rw [tokens_of_none h] at ht; cases ht
  | step c u d h ih =>
    obtain ⟨lead, w, rest, k, hrest, _, hlong, rfl, rfl⟩ := next?_eq_some_iff.1 h
    have hlength : c.rest.length = lead.length + w.length + rest.length := by
      rw [hrest]
      simp only [List.length_append]
      omega
    have hpos : 0 < w.length := hlong.known.length_pos
    rw [tokens_of_some h] at ht
    rcases List.mem_cons.1 ht with rfl | ht
    · refine ⟨lead.length, by omega, rfl, ?_⟩
      rw [hrest, List.drop_left, String.toList_ofList]
      exact List.prefix_append w rest
    · obtain ⟨n, hn, hposition, hspelled⟩ := ih ht
      rw [advance_rest, List.drop_drop] at hspelled
      rw [rest_after hrest] at hn
      exact ⟨lead.length + w.length + n, by omega, by rw [hposition, ← advance_add], hspelled⟩

/-- Every token stands at a character of the text. -/
theorem tokens_position {c : Cursor} {t : Token} (ht : t ∈ c.tokens.1) :
    ∃ n < c.rest.length, t.position = some (c.advance n).position := by
  obtain ⟨n, hn, hposition, _⟩ := tokens_spelled ht
  exact ⟨n, hn, hposition⟩

theorem next_of_rest_nil {c : Cursor} (h : c.rest = []) : c.next = (c.endToken, c) := by
  have hnone : c.next? = none := next?_eq_none_iff.2 (by rw [h]; simp)
  have hskip : c.skipSpaces = c := by rw [skipSpaces_eq_advance, h]; rfl
  unfold next
  rw [hnone, hskip]

/-- **All tokens, then the end token** at the end of the text. -/
theorem tokenize_eq (c : Cursor) :
    c.tokenize = (c.tokens.1 ++ [(c.advance c.rest.length).endToken],
      c.advance c.rest.length) := by
  have hend : (c.advance c.rest.length).rest = [] := by rw [advance_rest]; simp
  unfold tokenize
  simp only [tokens_snd, next_of_rest_nil hend]

/-! ## Every request moves the cursor forward -/

theorem next_eq_advance (c : Cursor) : ∃ n, c.next.2 = c.advance n := by
  unfold next
  cases h : c.next? with
  | none => exact ⟨_, skipSpaces_eq_advance c⟩
  | some found =>
    obtain ⟨t, d⟩ := found
    obtain ⟨lead, w, _, _, _, _, _, _, rfl⟩ := next?_eq_some_iff.1 h
    exact ⟨lead.length + w.length, rfl⟩

theorem take_eq_advance (c : Cursor) (n : Nat) : ∃ m, (c.take n).2 = c.advance m := by
  induction n generalizing c with
  | zero => exact ⟨0, rfl⟩
  | succ n ih =>
    rw [take]
    cases h : c.next? with
    | none => exact ⟨_, skipSpaces_eq_advance c⟩
    | some found =>
      obtain ⟨t, d⟩ := found
      obtain ⟨lead, w, _, _, _, _, _, _, rfl⟩ := next?_eq_some_iff.1 h
      obtain ⟨m, hm⟩ := ih (c.advance (lead.length + w.length))
      exact ⟨lead.length + w.length + m, by rw [advance_add c (lead.length + w.length)]; exact hm⟩

theorem perform_eq_advance (c : Cursor) (m : Move) : ∃ n, (c.perform m).2 = c.advance n := by
  cases m with
  | next => exact next_eq_advance c
  | peek => exact ⟨0, rfl⟩
  | read => exact ⟨1, rfl⟩
  | skip => exact ⟨_, skipSpaces_eq_advance c⟩
  | word => exact ⟨_, rfl⟩
  | number => exact ⟨_, rfl⟩
  | tokens => exact ⟨_, tokens_snd c⟩
  | take n => exact take_eq_advance c n
  | tokenize => exact ⟨c.rest.length, by rw [perform, tokenize_eq]⟩

/-- **Every run of requests moves the cursor by a number of characters.** -/
theorem performAll_eq_advance (c : Cursor) (moves : List Move) :
    ∃ n, (c.performAll moves).2 = c.advance n := by
  induction moves generalizing c with
  | nil => exact ⟨0, rfl⟩
  | cons m moves ih =>
    obtain ⟨n, hn⟩ := perform_eq_advance c m
    obtain ⟨n', hn'⟩ := ih (c.perform m).2
    exact ⟨n + n', by rw [advance_add, ← hn]; exact hn'⟩

end Cursor

end Lexline
