import Lexline.Token.Lexicon
import Mathlib.Data.List.TakeWhile

/-!
# The lexicon and its longest lexemes

`InLexicon` lists the lexemes by kind; the scanner finds one by its first character.  This file
joins the two readings.

* `inLexicon_cons_iff` — the lexemes that start with a given character, by its class.
* `InLexicon.kind_unique` — a text is a lexeme of one kind only.
* `startsLexeme_iff` — a character starts a lexeme other than an illegal character exactly if the
  tables say so.
* `InLexicon.of_append` — the start of a lexeme is a lexeme.
* `LongestLexeme` — a lexeme at the start of a text that no longer one beats; the character after
  it decides.
* `firstLexeme_eq_some_iff` — **the scanner finds the longest lexeme, and nothing else**, wherever
  a text does not start with a blank.
-/

namespace Lexline

/-! ## Tables -/

/-- In a table with distinct keys, looking up is membership. -/
theorem lookup_eq_some_iff_mem {α β : Type} [BEq α] [LawfulBEq α] {table : List (α × β)}
    (distinct : (table.map Prod.fst).Nodup) {x : α} {y : β} :
    table.lookup x = some y ↔ (x, y) ∈ table := by
  induction table with
  | nil => simp
  | cons entry table ih =>
    obtain ⟨a, b⟩ := entry
    simp only [List.map_cons, List.nodup_cons] at distinct
    rw [List.lookup_cons]
    by_cases h : x = a
    · subst h
      have hfree : (x, y) ∉ table := fun hmem => distinct.1 (List.mem_map_of_mem hmem)
      simp [hfree, eq_comm]
    · have hne : (x == a) = false := by simp [h]
      simp [h, hne, ih distinct.2]

theorem pairedKinds?_eq_some_iff {c : Char} {a p : Kind} :
    pairedKinds? c = some (a, p) ↔ (c, a, p) ∈ pairedOperators :=
  lookup_eq_some_iff_mem (by decide)

theorem soloKind?_eq_some_iff {c : Char} {k : Kind} :
    soloKind? c = some k ↔ (c, k) ∈ soloTokens :=
  lookup_eq_some_iff_mem (by decide)

theorem wordKind_of_mem {word : String} {k : Kind} (h : (word, k) ∈ keywords) :
    wordKind word = k := by
  rw [wordKind, (lookup_eq_some_iff_mem (by decide)).2 h]
  rfl

theorem wordKind_of_free {word : String} (h : ∀ p ∈ keywords, p.1 ≠ word) :
    wordKind word = .ident := by
  have hnone : keywords.lookup word = none := by
    rw [List.lookup_eq_none_iff]
    intro p hp
    simpa using Ne.symm (h p hp)
  rw [wordKind, hnone]
  rfl

/-- A word is a keyword or free. -/
theorem wordKind_cases (word : String) :
    (word, wordKind word) ∈ keywords ∨
      (∀ p ∈ keywords, p.1 ≠ word) ∧ wordKind word = .ident := by
  by_cases h : ∀ p ∈ keywords, p.1 ≠ word
  · exact Or.inr ⟨h, wordKind_of_free h⟩
  · left
    obtain ⟨⟨w, k⟩, h⟩ := Classical.not_forall.1 h
    obtain ⟨hmem, heq⟩ := Classical.not_imp.1 h
    obtain rfl : w = word := Classical.not_not.1 heq
    rw [wordKind_of_mem hmem]
    exact hmem

/-- A keyword is made of letters. -/
theorem keywords_letters {word : String} {k : Kind} (h : (word, k) ∈ keywords) :
    word.toList ≠ [] ∧ ∀ c ∈ word.toList, isLetter c = true := by
  have hall : ∀ e ∈ keywords, e.1.toList ≠ [] ∧ e.1.toList.all isLetter = true := by decide
  obtain ⟨hne, hletters⟩ := hall _ h
  exact ⟨hne, List.all_eq_true.1 hletters⟩

/-! ## Classes of characters

No character is in two of the classes by which the scanner chooses. -/

theorem isDigit_iff {c : Char} : isDigit c = true ↔ 48 ≤ c.toNat ∧ c.toNat ≤ 57 := by
  simp only [isDigit, Bool.and_eq_true, decide_eq_true_eq, Char.le_def, UInt32.le_iff_toNat_le]
  exact Iff.rfl

theorem isLetter_iff {c : Char} : isLetter c = true ↔
    (97 ≤ c.toNat ∧ c.toNat ≤ 122) ∨ (65 ≤ c.toNat ∧ c.toNat ≤ 90) ∨ c.toNat = 95 := by
  have hline : c = '_' ↔ c.toNat = 95 := by
    constructor
    · rintro rfl; rfl
    · intro h; exact Char.toNat_inj.1 h
  simp only [isLetter, Bool.or_eq_true, Bool.and_eq_true, decide_eq_true_eq, beq_iff_eq,
    Char.le_def, UInt32.le_iff_toNat_le, hline, or_assoc]
  exact Iff.rfl

theorem isDigit_of_isLetter {c : Char} (h : isLetter c = true) : isDigit c = false := by
  rw [isLetter_iff] at h
  rw [← Bool.not_eq_true, isDigit_iff]
  omega

theorem isSpace_apart {c : Char} (h : isSpace c = true) :
    pairedKinds? c = none ∧ soloKind? c = none ∧ isLetter c = false ∧ isDigit c = false := by
  have hmem : c ∈ spaces := List.contains_iff_mem.1 h
  simp only [spaces, List.mem_cons, List.not_mem_nil, or_false] at hmem
  rcases hmem with rfl | rfl | rfl | rfl <;> decide

theorem pairedKinds?_apart {c : Char} {a p : Kind} (h : pairedKinds? c = some (a, p)) :
    soloKind? c = none ∧ isLetter c = false ∧ isDigit c = false := by
  have hall : ∀ e ∈ pairedOperators, soloKind? e.1 = none ∧ isLetter e.1 = false ∧
      isDigit e.1 = false := by decide
  exact hall _ (pairedKinds?_eq_some_iff.1 h)

theorem soloKind?_apart {c : Char} {k : Kind} (h : soloKind? c = some k) :
    pairedKinds? c = none ∧ isLetter c = false ∧ isDigit c = false := by
  have hall : ∀ e ∈ soloTokens, pairedKinds? e.1 = none ∧ isLetter e.1 = false ∧
      isDigit e.1 = false := by decide
  exact hall _ (soloKind?_eq_some_iff.1 h)

theorem isLetter_apart {c : Char} (h : isLetter c = true) :
    pairedKinds? c = none ∧ soloKind? c = none ∧ isDigit c = false := by
  refine ⟨?_, ?_, isDigit_of_isLetter h⟩
  · cases hp : pairedKinds? c with
    | none => rfl
    | some kinds => rw [(pairedKinds?_apart hp).2.1] at h; cases h
  · cases hs : soloKind? c with
    | none => rfl
    | some kind => rw [(soloKind?_apart hs).2.1] at h; cases h

theorem isDigit_apart {c : Char} (h : isDigit c = true) :
    pairedKinds? c = none ∧ soloKind? c = none ∧ isLetter c = false := by
  refine ⟨?_, ?_, ?_⟩
  · cases hp : pairedKinds? c with
    | none => rfl
    | some kinds => rw [(pairedKinds?_apart hp).2.2] at h; cases h
  · cases hs : soloKind? c with
    | none => rfl
    | some kind => rw [(soloKind?_apart hs).2.2] at h; cases h
  · cases hl : isLetter c with
    | false => rfl
    | true => rw [isDigit_of_isLetter hl] at h; cases h

theorem startsLexeme_eq_false_iff {c : Char} : startsLexeme c = false ↔
    pairedKinds? c = none ∧ soloKind? c = none ∧ isLetter c = false ∧ isDigit c = false := by
  simp [startsLexeme, and_assoc]

/-! ## Lexemes by their first character -/

/-- `Opens k c w`: the class of the character `c` lets it open a lexeme of kind `k` that goes on
with `w`. -/
inductive Opens : Kind → Char → List Char → Prop
  | alone {c : Char} {k k' : Kind} (h : pairedKinds? c = some (k, k')) : Opens k c []
  | paired {c : Char} {k k' : Kind} (h : pairedKinds? c = some (k, k')) : Opens k' c ['=']
  | solo {c : Char} {k : Kind} (h : soloKind? c = some k) : Opens k c []
  | word {c : Char} {w : List Char} (h : isLetter c = true) (letters : ∀ x ∈ w, isLetter x = true) :
      Opens (wordKind (String.ofList (c :: w))) c w
  | number {c : Char} {w : List Char} (h : isDigit c = true) (digits : ∀ x ∈ w, isDigit x = true) :
      Opens .int c w
  | foreign {c : Char} (apart : isSpace c = false) (h : startsLexeme c = false) :
      Opens .illegal c []

theorem InLexicon.opens {k : Kind} {c : Char} {w : List Char} (h : InLexicon k (c :: w)) :
    Opens k c w := by
  generalize ht : c :: w = text at h
  cases h with
  | @keyword word k hmem =>
    have hletters := (keywords_letters hmem).2
    rw [← ht] at hletters
    have hword : word = String.ofList (c :: w) := by rw [ht, String.ofList_toList]
    rw [← wordKind_of_mem hmem, hword]
    exact .word (hletters c (by simp)) (fun x hx => hletters x (by simp [hx]))
  | ident _ letters free =>
    subst ht
    have hfree : wordKind (String.ofList (c :: w)) = .ident := by
      apply wordKind_of_free
      intro p hp heq
      exact free p hp (by rw [heq, String.toList_ofList])
    rw [← hfree]
    exact .word (letters c (by simp)) (fun x hx => letters x (by simp [hx]))
  | int _ digits =>
    subst ht
    exact .number (digits c (by simp)) (fun x hx => digits x (by simp [hx]))
  | alone hmem => cases ht; exact .alone (pairedKinds?_eq_some_iff.2 hmem)
  | paired hmem => cases ht; exact .paired (pairedKinds?_eq_some_iff.2 hmem)
  | solo hmem => cases ht; exact .solo (soloKind?_eq_some_iff.2 hmem)
  | illegal apart foreign => cases ht; exact .foreign apart foreign

theorem Opens.inLexicon {k : Kind} {c : Char} {w : List Char} (h : Opens k c w) :
    InLexicon k (c :: w) := by
  cases h with
  | alone h => exact .alone (pairedKinds?_eq_some_iff.1 h)
  | paired h => exact .paired (pairedKinds?_eq_some_iff.1 h)
  | solo h => exact .solo (soloKind?_eq_some_iff.1 h)
  | word h letters =>
    have hall : ∀ x ∈ c :: w, isLetter x = true := by
      intro x hx
      rcases List.mem_cons.1 hx with rfl | hx
      · exact h
      · exact letters x hx
    rcases wordKind_cases (String.ofList (c :: w)) with hmem | ⟨hfree, hident⟩
    · have hkey := InLexicon.keyword hmem
      rwa [String.toList_ofList] at hkey
    · rw [hident]
      refine .ident (by simp) hall ?_
      intro p hp heq
      exact hfree p hp (by rw [← heq, String.ofList_toList])
  | number h digits =>
    refine .int (by simp) ?_
    intro x hx
    rcases List.mem_cons.1 hx with rfl | hx
    · exact h
    · exact digits x hx
  | foreign apart h => exact .illegal apart h

/-- **The lexemes that start with a character**, by its class. -/
theorem inLexicon_cons_iff {k : Kind} {c : Char} {w : List Char} :
    InLexicon k (c :: w) ↔ Opens k c w :=
  ⟨InLexicon.opens, Opens.inLexicon⟩

/-- No lexeme is empty. -/
theorem InLexicon.exists_cons {k : Kind} {text : List Char} (h : InLexicon k text) :
    ∃ c w, text = c :: w ∧ Opens k c w := by
  cases text with
  | cons c w => exact ⟨c, w, rfl, h.opens⟩
  | nil =>
    generalize ht : ([] : List Char) = text at h
    cases h with
    | keyword hmem => exact absurd ht.symm (keywords_letters hmem).1
    | ident nonempty => exact absurd ht.symm nonempty
    | int nonempty => exact absurd ht.symm nonempty
    | alone => cases ht
    | paired => cases ht
    | solo => cases ht
    | illegal => cases ht

theorem InLexicon.length_pos {k : Kind} {text : List Char} (h : InLexicon k text) :
    0 < text.length := by
  obtain ⟨c, w, rfl, _⟩ := h.exists_cons
  simp

/-- A lexeme does not start with a blank. -/
theorem Opens.isSpace_eq_false {k : Kind} {c : Char} {w : List Char} (h : Opens k c w) :
    isSpace c = false := by
  cases hc : isSpace c with
  | false => rfl
  | true =>
    obtain ⟨hp, hs, hl, hd⟩ := isSpace_apart hc
    cases h with
    | alone h => rw [hp] at h; cases h
    | paired h => rw [hp] at h; cases h
    | solo h => rw [hs] at h; cases h
    | word h => rw [hl] at h; cases h
    | number h => rw [hd] at h; cases h
    | foreign apart => rw [hc] at apart; cases apart

/-- The kind of a lexeme is never that of the end token, and that of an illegal character only
where the tables list nothing. -/
theorem Opens.kind_cases {k : Kind} {c : Char} {w : List Char} (h : Opens k c w) :
    (k ≠ .eof ∧ k ≠ .illegal) ∨ (k = .illegal ∧ w = [] ∧ startsLexeme c = false) := by
  cases h with
  | alone h =>
    have hall : ∀ e ∈ pairedOperators, e.2.1 ≠ .eof ∧ e.2.1 ≠ .illegal := by decide
    exact Or.inl (hall _ (pairedKinds?_eq_some_iff.1 h))
  | paired h =>
    have hall : ∀ e ∈ pairedOperators, e.2.2 ≠ .eof ∧ e.2.2 ≠ .illegal := by decide
    exact Or.inl (hall _ (pairedKinds?_eq_some_iff.1 h))
  | solo h =>
    have hall : ∀ e ∈ soloTokens, e.2 ≠ .eof ∧ e.2 ≠ .illegal := by decide
    exact Or.inl (hall _ (soloKind?_eq_some_iff.1 h))
  | word _ _ =>
    have hall : ∀ e ∈ keywords, e.2 ≠ .eof ∧ e.2 ≠ .illegal := by decide
    rcases wordKind_cases (String.ofList (c :: w)) with hmem | ⟨_, hident⟩
    · exact Or.inl (hall _ hmem)
    · rw [hident]; exact Or.inl (by decide)
  | number => exact Or.inl (by decide)
  | foreign _ h => exact Or.inr ⟨rfl, rfl, h⟩

/-- No character of a lexeme is a blank. -/
theorem InLexicon.isSpace_eq_false {k : Kind} {w : List Char} (h : InLexicon k w) :
    ∀ x ∈ w, isSpace x = false := by
  obtain ⟨c, v, rfl, hopens⟩ := h.exists_cons
  have htail : ∀ x ∈ v, isSpace x = false := by
    intro x hx
    cases hspace : isSpace x with
    | false => rfl
    | true =>
      obtain ⟨_, _, hl, hd⟩ := isSpace_apart hspace
      cases hopens with
      | alone | solo | foreign => cases hx
      | paired => obtain rfl := List.mem_singleton.1 hx; cases hspace
      | word _ letters => rw [letters x hx] at hl; cases hl
      | number _ digits => rw [digits x hx] at hd; cases hd
  exact List.forall_mem_cons.2 ⟨hopens.isSpace_eq_false, htail⟩

theorem Opens.of_append {k : Kind} {c : Char} {w v : List Char} (h : Opens k c (w ++ v)) :
    ∃ k', Opens k' c w := by
  generalize htail : w ++ v = tail at h
  cases h with
  | alone hc =>
    obtain ⟨rfl, _⟩ := List.append_eq_nil_iff.1 htail
    exact ⟨_, .alone hc⟩
  | paired hc =>
    rcases List.append_eq_singleton_iff.1 htail with ⟨rfl, _⟩ | ⟨rfl, _⟩
    · exact ⟨_, .alone hc⟩
    · exact ⟨_, .paired hc⟩
  | solo hc =>
    obtain ⟨rfl, _⟩ := List.append_eq_nil_iff.1 htail
    exact ⟨_, .solo hc⟩
  | word hc letters => exact ⟨_, .word hc fun x hx => letters x (by simp [← htail, hx])⟩
  | number hc digits => exact ⟨_, .number hc fun x hx => digits x (by simp [← htail, hx])⟩
  | foreign apart hc =>
    obtain ⟨rfl, _⟩ := List.append_eq_nil_iff.1 htail
    exact ⟨_, .foreign apart hc⟩

/-- **The start of a lexeme is a lexeme**, of some kind. -/
theorem InLexicon.of_append {k : Kind} {w v : List Char} (h : InLexicon k (w ++ v))
    (hne : w ≠ []) : ∃ k', InLexicon k' w := by
  obtain ⟨c, w, rfl⟩ := List.exists_cons_of_ne_nil hne
  have hopens : Opens k c (w ++ v) := h.opens
  obtain ⟨k', hstart⟩ := hopens.of_append
  exact ⟨k', hstart.inLexicon⟩

theorem InLexicon.kind_ne_eof {k : Kind} {w : List Char} (h : InLexicon k w) : k ≠ .eof := by
  obtain ⟨c, v, rfl, hopens⟩ := h.exists_cons
  rcases hopens.kind_cases with ⟨hk, _⟩ | ⟨rfl, _⟩
  · exact hk
  · decide

/-! ## What one class allows -/

theorem Opens.of_paired {k a p : Kind} {c : Char} {w : List Char} (h : Opens k c w)
    (hc : pairedKinds? c = some (a, p)) : (k = a ∧ w = []) ∨ (k = p ∧ w = ['=']) := by
  obtain ⟨hs, hl, hd⟩ := pairedKinds?_apart hc
  cases h with
  | alone h => rw [hc] at h; cases h; exact Or.inl ⟨rfl, rfl⟩
  | paired h => rw [hc] at h; cases h; exact Or.inr ⟨rfl, rfl⟩
  | solo h => rw [hs] at h; cases h
  | word h => rw [hl] at h; cases h
  | number h => rw [hd] at h; cases h
  | foreign _ h => rw [(startsLexeme_eq_false_iff.1 h).1] at hc; cases hc

theorem Opens.of_solo {k s : Kind} {c : Char} {w : List Char} (h : Opens k c w)
    (hc : soloKind? c = some s) : k = s ∧ w = [] := by
  obtain ⟨hp, hl, hd⟩ := soloKind?_apart hc
  cases h with
  | alone h => rw [hp] at h; cases h
  | paired h => rw [hp] at h; cases h
  | solo h => rw [hc] at h; cases h; exact ⟨rfl, rfl⟩
  | word h => rw [hl] at h; cases h
  | number h => rw [hd] at h; cases h
  | foreign _ h => rw [(startsLexeme_eq_false_iff.1 h).2.1] at hc; cases hc

theorem Opens.of_letter {k : Kind} {c : Char} {w : List Char} (h : Opens k c w)
    (hc : isLetter c = true) :
    k = wordKind (String.ofList (c :: w)) ∧ ∀ x ∈ w, isLetter x = true := by
  obtain ⟨hp, hs, hd⟩ := isLetter_apart hc
  cases h with
  | alone h => rw [hp] at h; cases h
  | paired h => rw [hp] at h; cases h
  | solo h => rw [hs] at h; cases h
  | word _ letters => exact ⟨rfl, letters⟩
  | number h => rw [hd] at h; cases h
  | foreign _ h => rw [(startsLexeme_eq_false_iff.1 h).2.2.1] at hc; cases hc

theorem Opens.of_digit {k : Kind} {c : Char} {w : List Char} (h : Opens k c w)
    (hc : isDigit c = true) : k = .int ∧ ∀ x ∈ w, isDigit x = true := by
  obtain ⟨hp, hs, hl⟩ := isDigit_apart hc
  cases h with
  | alone h => rw [hp] at h; cases h
  | paired h => rw [hp] at h; cases h
  | solo h => rw [hs] at h; cases h
  | word h => rw [hl] at h; cases h
  | number _ digits => exact ⟨rfl, digits⟩
  | foreign _ h => rw [(startsLexeme_eq_false_iff.1 h).2.2.2] at hc; cases hc

theorem Opens.of_foreign {k : Kind} {c : Char} {w : List Char} (h : Opens k c w)
    (hc : startsLexeme c = false) : k = .illegal ∧ w = [] := by
  obtain ⟨hp, hs, hl, hd⟩ := startsLexeme_eq_false_iff.1 hc
  cases h with
  | alone h => rw [hp] at h; cases h
  | paired h => rw [hp] at h; cases h
  | solo h => rw [hs] at h; cases h
  | word h => rw [hl] at h; cases h
  | number h => rw [hd] at h; cases h
  | foreign => exact ⟨rfl, rfl⟩

theorem Opens.kind_unique {k k' : Kind} {c : Char} {w : List Char} (h : Opens k c w)
    (h' : Opens k' c w) : k = k' := by
  cases h with
  | alone hc =>
    rcases h'.of_paired hc with ⟨rfl, _⟩ | ⟨_, hw⟩
    · rfl
    · cases hw
  | paired hc =>
    rcases h'.of_paired hc with ⟨_, hw⟩ | ⟨rfl, _⟩
    · cases hw
    · rfl
  | solo hc => exact (h'.of_solo hc).1.symm
  | word hc => exact (h'.of_letter hc).1.symm
  | number hc => exact (h'.of_digit hc).1.symm
  | foreign _ hc => exact (h'.of_foreign hc).1.symm

/-- **A text is a lexeme of one kind only.** -/
theorem InLexicon.kind_unique {k k' : Kind} {w : List Char} (h : InLexicon k w)
    (h' : InLexicon k' w) : k = k' := by
  obtain ⟨c, v, rfl, hopens⟩ := h.exists_cons
  exact hopens.kind_unique h'.opens

/-- A character is the start of a lexeme other than an illegal character exactly if the tables
list it. -/
theorem startsLexeme_iff {c : Char} :
    startsLexeme c = true ↔ ∃ k w, k ≠ .illegal ∧ InLexicon k (c :: w) := by
  constructor
  · intro h
    have hopens : ∃ k, Opens k c [] := by
      simp only [startsLexeme, Bool.or_eq_true, Option.isSome_iff_exists] at h
      rcases h with ((⟨⟨a, p⟩, hp⟩ | ⟨kind, hs⟩) | hl) | hd
      · exact ⟨a, .alone hp⟩
      · exact ⟨kind, .solo hs⟩
      · exact ⟨_, .word hl (by simp)⟩
      · exact ⟨.int, .number hd (by simp)⟩
    obtain ⟨k, hk⟩ := hopens
    rcases hk.kind_cases with ⟨_, hne⟩ | ⟨_, _, hfalse⟩
    · exact ⟨k, [], hne, hk.inLexicon⟩
    · rw [h] at hfalse; cases hfalse
  · rintro ⟨k, w, hk, hmem⟩
    cases hc : startsLexeme c with
    | true => rfl
    | false => exact absurd (hmem.opens.of_foreign hc).1 hk

/-- An illegal character is no blank and starts no lexeme of another kind. -/
theorem inLexicon_illegal_iff {w : List Char} : InLexicon .illegal w ↔
    ∃ c, w = [c] ∧ isSpace c = false ∧ ∀ k v, k ≠ .illegal → ¬ InLexicon k (c :: v) := by
  constructor
  · intro h
    obtain ⟨c, v, rfl, hopens⟩ := h.exists_cons
    rcases hopens.kind_cases with ⟨_, hne⟩ | ⟨_, rfl, hc⟩
    · exact absurd rfl hne
    · refine ⟨c, rfl, hopens.isSpace_eq_false, ?_⟩
      intro k v hk hmem
      exact hk (hmem.opens.of_foreign hc).1
  · rintro ⟨c, rfl, hspace, hfree⟩
    refine .illegal hspace ?_
    cases hc : startsLexeme c with
    | false => rfl
    | true =>
      obtain ⟨k, v, hk, hmem⟩ := startsLexeme_iff.1 hc
      exact absurd hmem (hfree k v hk)

/-! ## The longest lexeme -/

/-- `LongestLexeme text k w`: the text starts with the lexeme `w` of kind `k`, and with no longer
one. -/
structure LongestLexeme (text : List Char) (k : Kind) (w : List Char) : Prop where
  known : InLexicon k w
  starts : w <+: text
  longest : ∀ k' w', InLexicon k' w' → w' <+: text → w'.length ≤ w.length

/-- A text has at most one longest lexeme. -/
theorem LongestLexeme.unique {text w w' : List Char} {k k' : Kind} (h : LongestLexeme text k w)
    (h' : LongestLexeme text k' w') : k = k' ∧ w = w' := by
  have hle : w.length ≤ w'.length := h'.longest k w h.known h.starts
  have hge : w'.length ≤ w.length := h.longest k' w' h'.known h'.starts
  have hpre : w <+: w' := List.prefix_of_prefix_length_le h.starts h'.starts hle
  obtain rfl : w = w' := hpre.eq_of_length (by omega)
  exact ⟨h.known.kind_unique h'.known, rfl⟩

/-- A text that starts with a lexeme starts with no blank. -/
theorem LongestLexeme.head_blank {text w : List Char} {k : Kind} (h : LongestLexeme text k w) :
    ∀ x ∈ text.head?, isSpace x = false := by
  obtain ⟨c, v, rfl, hopens⟩ := h.known.exists_cons
  obtain ⟨tail, rfl⟩ := h.starts
  intro x hx
  cases hx
  exact hopens.isSpace_eq_false

/-- A lexeme is the longest one unless it goes on in the text that follows it. -/
theorem LongestLexeme.of_append {k : Kind} {w more : List Char} (known : InLexicon k w)
    (hmax : ∀ k' x v, InLexicon k' (w ++ x :: v) → ¬ x :: v <+: more) :
    LongestLexeme (w ++ more) k w := by
  refine ⟨known, List.prefix_append _ _, ?_⟩
  intro k' w' hmem hpre
  by_contra hlt
  obtain ⟨v, rfl⟩ : w <+: w' :=
    List.prefix_of_prefix_length_le (List.prefix_append _ _) hpre (by omega)
  cases v with
  | nil => simp at hlt
  | cons x v => exact hmax k' x v hmem ((List.prefix_append_right_inj w).1 hpre)

/-- **One character after a lexeme decides** whether it is the longest. -/
theorem LongestLexeme.of_next {k : Kind} {w rest : List Char} {x : Char}
    (h : LongestLexeme (w ++ x :: rest) k w) (rest' : List Char) :
    LongestLexeme (w ++ x :: rest') k w := by
  refine .of_append h.known ?_
  intro k' y v hmem hpre
  -- a longer lexeme starts with `w` and `x`, so these alone are one, in the first text too
  obtain ⟨rfl, _⟩ := List.cons_prefix_cons.1 hpre
  have hsplit : w ++ y :: v = (w ++ [y]) ++ v := by simp
  obtain ⟨k'', hstart⟩ := (hsplit ▸ hmem).of_append (by simp)
  have hle := h.longest k'' (w ++ [y]) hstart ⟨rest, by simp⟩
  rw [List.length_append, List.length_singleton] at hle
  omega

/-- A lexeme in front of blanks is the longest there. -/
theorem LongestLexeme.of_blank {k : Kind} {w more : List Char} (h : LongestLexeme w k w)
    (hmore : ∀ x ∈ more, isSpace x = true) : LongestLexeme (w ++ more) k w := by
  refine .of_append h.known ?_
  intro k' y v hmem hpre
  have hy := hmem.isSpace_eq_false y (by simp)
  rw [hmore y (hpre.subset (by simp))] at hy
  cases hy

/-- It is enough to compare with the lexemes that the first character opens. -/
theorem LongestLexeme.of_opens {k : Kind} {c : Char} {w rest : List Char} (h : Opens k c w)
    (hw : w <+: rest) (hmax : ∀ k' v, Opens k' c v → v <+: rest → v.length ≤ w.length) :
    LongestLexeme (c :: rest) k (c :: w) := by
  refine ⟨h.inLexicon, List.cons_prefix_cons.2 ⟨rfl, hw⟩, ?_⟩
  intro k' text hmem hpre
  obtain ⟨x, v, rfl, hopens⟩ := hmem.exists_cons
  obtain ⟨rfl, hv⟩ := List.cons_prefix_cons.1 hpre
  simpa using hmax k' v hopens hv

/-- A run of a class at the start of a text is no longer than the whole run there. -/
theorem length_le_takeWhile {p : Char → Bool} {v text : List Char} (hv : v <+: text)
    (hall : ∀ x ∈ v, p x = true) : v.length ≤ (text.takeWhile p).length := by
  obtain ⟨tail, rfl⟩ := hv
  rw [List.takeWhile_append_of_pos hall, List.length_append]
  omega

/-- The scanner's choice at a character that is no blank is a longest lexeme. -/
theorem firstLexeme_longest {c : Char} (hc : isSpace c = false) (rest : List Char) :
    ∃ k w, firstLexeme (c :: rest) = some (k, c :: w) ∧ LongestLexeme (c :: rest) k (c :: w) := by
  cases hp : pairedKinds? c with
  | some kinds =>
    obtain ⟨a, p⟩ := kinds
    by_cases heq : rest.head? = some '='
    · obtain ⟨tail, rfl⟩ : ∃ tail, rest = '=' :: tail := List.head?_eq_some_iff.1 heq
      refine ⟨p, ['='], by simp [firstLexeme, hp], .of_opens (.paired hp) ⟨tail, rfl⟩ ?_⟩
      intro k' v hv _
      rcases hv.of_paired hp with ⟨_, rfl⟩ | ⟨_, rfl⟩ <;> simp
    · refine ⟨a, [], by simp [firstLexeme, hp, heq], .of_opens (.alone hp) List.nil_prefix ?_⟩
      intro k' v hv hpre
      rcases hv.of_paired hp with ⟨_, rfl⟩ | ⟨_, rfl⟩
      · simp
      · obtain ⟨tail, rfl⟩ := hpre
        exact absurd rfl heq
  | none =>
    cases hs : soloKind? c with
    | some kind =>
      refine ⟨kind, [], by simp [firstLexeme, hp, hs], .of_opens (.solo hs) List.nil_prefix ?_⟩
      intro k' v hv _
      simp [(hv.of_solo hs).2]
    | none =>
      cases hl : isLetter c with
      | true =>
        refine ⟨_, rest.takeWhile isLetter, by simp [firstLexeme, hp, hs, hl],
          .of_opens (.word hl fun _ => List.mem_takeWhile_imp) (List.takeWhile_prefix _) ?_⟩
        intro k' v hv hpre
        exact length_le_takeWhile hpre (hv.of_letter hl).2
      | false =>
        cases hd : isDigit c with
        | true =>
          refine ⟨_, rest.takeWhile isDigit, by simp [firstLexeme, hp, hs, hl, hd],
            .of_opens (.number hd fun _ => List.mem_takeWhile_imp) (List.takeWhile_prefix _) ?_⟩
          intro k' v hv hpre
          exact length_le_takeWhile hpre (hv.of_digit hd).2
        | false =>
          have hforeign : startsLexeme c = false :=
            startsLexeme_eq_false_iff.2 ⟨hp, hs, hl, hd⟩
          refine ⟨_, [], by simp [firstLexeme, hp, hs, hl, hd],
            .of_opens (.foreign hc hforeign) List.nil_prefix ?_⟩
          intro k' v hv _
          simp [(hv.of_foreign hforeign).2]

/-- **The scanner finds the longest lexeme, and nothing else**, in a text that starts with no
blank. -/
theorem firstLexeme_eq_some_iff {text w : List Char} {k : Kind}
    (hblank : ∀ c ∈ text.head?, isSpace c = false) :
    firstLexeme text = some (k, w) ↔ LongestLexeme text k w := by
  cases text with
  | nil =>
    constructor
    · intro h; cases h
    · intro h
      obtain ⟨c, v, rfl, _⟩ := h.known.exists_cons
      exact absurd h.starts (by simp)
  | cons c rest =>
    obtain ⟨k', w', hfirst, hlong⟩ := firstLexeme_longest (hblank c rfl) rest
    rw [hfirst]
    constructor
    · intro h; cases h; exact hlong
    · intro h
      obtain ⟨rfl, rfl⟩ := h.unique hlong
      rfl

end Lexline
