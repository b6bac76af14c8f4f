import Lexline.Proofs.Placement
import Lexline.Report

/-!
# The alphabet

A scan calls a character illegal exactly if the language has no use for it, whatever stands around
it.  So the illegal tokens of a source are its foreign characters, one by one.

* `inAlphabet` — the characters of the language.
* `foreignChars` — the other characters of a text, with their indices.
* `tokens_illegal` — **the illegal tokens of a cursor are the foreign characters** it has to read.
* `Report.ofForeign`, `firstIllegal?_segment` — the report on some lines of a source is one on the
  first foreign character of these lines.
-/

namespace Lexline

open Text

/-- The characters of operators and delimiters. -/
def marks : List Char :=
  ['=', '!', '<', '>', '+', '-', '/', '*', ';', '(', ')', ',', '{', '}']

/-- Whether the language has a character: as a blank, as a letter or an underscore, as a digit, or
in an operator or a delimiter. -/
def inAlphabet (c : Char) : Bool := isSpace c || isLetter c || isDigit c || marks.contains c

/-- Whether a character of a text is not in the alphabet. -/
def isForeign (e : Char × Nat) : Bool := !inAlphabet e.1

/-- The characters of a text that are not in the alphabet, with their indices. -/
def foreignChars (text : List Char) : List (Char × Nat) := text.zipIdx.filter isForeign

theorem mem_marks_iff {c : Char} : c ∈ marks ↔ pairedKinds? c ≠ none ∨ soloKind? c ≠ none := by
  constructor
  · intro h
    have hmarks : marks.all (fun c => (pairedKinds? c).isSome || (soloKind? c).isSome) = true := by
      decide
    simpa [Option.isSome_iff_ne_none] using List.all_eq_true.1 hmarks c h
  · have hpaired : ∀ e ∈ pairedOperators, e.1 ∈ marks := by decide
    have hsolo : ∀ e ∈ soloTokens, e.1 ∈ marks := by decide
    rintro (h | h)
    · obtain ⟨⟨a, p⟩, hp⟩ := Option.ne_none_iff_exists'.1 h
      exact hpaired _ (pairedKinds?_eq_some_iff.1 hp)
    · obtain ⟨k, hs⟩ := Option.ne_none_iff_exists'.1 h
      exact hsolo _ (soloKind?_eq_some_iff.1 hs)

/-- **The alphabet is the blanks and what starts a lexeme.** -/
theorem inAlphabet_eq_false_iff {c : Char} :
    inAlphabet c = false ↔ isSpace c = false ∧ startsLexeme c = false := by
  have hmarks : marks.contains c = false ↔ pairedKinds? c = none ∧ soloKind? c = none := by
    rw [← Bool.not_eq_true, List.contains_iff_mem, mem_marks_iff]
    simp
  simp only [inAlphabet, Bool.or_eq_false_iff, hmarks, startsLexeme_eq_false_iff]
  constructor
  · rintro ⟨⟨⟨hspace, hletter⟩, hdigit⟩, hpaired, hsolo⟩
    exact ⟨hspace, hpaired, hsolo, hletter, hdigit⟩
  · rintro ⟨hspace, hpaired, hsolo, hletter, hdigit⟩
    exact ⟨⟨⟨hspace, hletter⟩, hdigit⟩, hpaired, hsolo⟩

theorem inAlphabet_of_isSpace {c : Char} (h : isSpace c = true) : inAlphabet c = true := by
  simp [inAlphabet, h]

/-- Every character of a lexeme is in the alphabet, unless the lexeme is an illegal character. -/
theorem InLexicon.mem_alphabet {k : Kind} {w : List Char} (h : InLexicon k w) (hk : k ≠ .illegal) :
    ∀ x ∈ w, inAlphabet x = true := by
  have hlegal : ∀ x, startsLexeme x = true → inAlphabet x = true := by
    intro x hx
    cases hlegal : inAlphabet x with
    | true => rfl
    | false =>
      rw [(inAlphabet_eq_false_iff.1 hlegal).2] at hx
      cases hx
  obtain ⟨c, v, rfl, hopens⟩ := h.exists_cons
  have hfirst : inAlphabet c = true :=
    hlegal c (startsLexeme_iff.2 ⟨k, v, hk, h⟩)
  have hrest : ∀ x ∈ v, inAlphabet x = true := by
    intro x hx
    cases hopens with
    | alone | solo | foreign => cases hx
    | paired => obtain rfl := List.mem_singleton.1 hx; decide
    | word _ letters => simp [inAlphabet, letters x hx]
    | number _ digits => simp [inAlphabet, digits x hx]
  exact List.forall_mem_cons.2 ⟨hfirst, hrest⟩

theorem InLexicon.eq_foreign {w : List Char} (h : InLexicon .illegal w) :
    ∃ x, w = [x] ∧ inAlphabet x = false := by
  obtain ⟨c, v, rfl, hopens⟩ := h.exists_cons
  rcases hopens.kind_cases with ⟨_, hne⟩ | ⟨_, rfl, hc⟩
  · exact absurd rfl hne
  · exact ⟨c, rfl, inAlphabet_eq_false_iff.2 ⟨hopens.isSpace_eq_false, hc⟩⟩

/-! ## Foreign characters -/

/-- The foreign characters of a text, by their indices. -/
theorem mem_foreignChars_iff {text : List Char} {x : Char} {p : Nat} :
    (x, p) ∈ foreignChars text ↔ text[p]? = some x ∧ inAlphabet x = false := by
  rw [foreignChars, List.mem_filter, List.mk_mem_zipIdx_iff_getElem?]
  simp [isForeign]

theorem foreignChars_append (a b : List Char) :
    foreignChars (a ++ b) =
      foreignChars a ++ (foreignChars b).map (fun e => (e.1, a.length + e.2)) := by
  unfold foreignChars
  have hshift : b.zipIdx a.length = b.zipIdx.map (fun e => (e.1, a.length + e.2)) :=
    List.zipIdx_eq_map_add
  rw [List.zipIdx_append, List.filter_append, Nat.zero_add, hshift, List.filter_map]
  rfl

theorem foreignChars_eq_nil_iff {text : List Char} :
    foreignChars text = [] ↔ ∀ x ∈ text, inAlphabet x = true := by
  induction text with
  | nil => simp [foreignChars]
  | cons c text ih =>
    have hsplit := foreignChars_append [c] text
    rw [List.singleton_append] at hsplit
    rw [hsplit, List.append_eq_nil_iff, List.map_eq_nil_iff, ih, List.forall_mem_cons]
    simp [foreignChars, isForeign]

theorem foreignChars_singleton {x : Char} (h : inAlphabet x = false) :
    foreignChars [x] = [(x, 0)] := by
  simp [foreignChars, isForeign, h]

/-- The first foreign character, in a text that is all in the alphabet before it. -/
theorem find?_isForeign {before : List Char} {x : Char} (after : List Char)
    (hbefore : ∀ y ∈ before, inAlphabet y = true) (hx : inAlphabet x = false) :
    (before ++ x :: after).zipIdx.find? isForeign = some (x, before.length) := by
  rw [← List.head?_filter]
  show (foreignChars (before ++ ([x] ++ after))).head? = _
  rw [foreignChars_append, foreignChars_append, foreignChars_eq_nil_iff.2 hbefore,
    foreignChars_singleton hx]
  rfl

/-! ## Illegal tokens -/

/-- The token of a foreign character. -/
def Token.ofForeign (x : Char) (p : Position) : Token := ⟨.illegal, String.ofList [x], some p⟩

/-- **The illegal tokens of a cursor are the foreign characters** it has to read, in order, each
where it stands. -/
theorem Cursor.tokens_illegal (c : Cursor) :
    c.tokens.1.filter (fun t => t.kind == .illegal) =
      (foreignChars c.rest).map (fun e => Token.ofForeign e.1 (c.advance e.2).position) := by
  induction c using tokens_induct with
  | done c hnone =>
    have hlegal : ∀ x ∈ c.rest, inAlphabet x = true :=
      fun x hx => inAlphabet_of_isSpace (next?_eq_none_iff.1 hnone x hx)
    rw [tokens_of_none hnone, foreignChars_eq_nil_iff.2 hlegal]
    rfl
  | step c t d hsome ih =>
    obtain ⟨lead, w, rest, k, hrest, hlead, hlong, rfl, rfl⟩ := next?_eq_some_iff.1 hsome
    have hblank : foreignChars lead = [] :=
      foreignChars_eq_nil_iff.2 (fun x hx => inAlphabet_of_isSpace (hlead x hx))
    rw [rest_after hrest] at ih
    rw [tokens_of_some hsome, List.filter_cons, ih, hrest, foreignChars_append, hblank,
      foreignChars_append]
    -- the lexeme is a foreign character by itself, or it has none
    by_cases hk : k = .illegal
    · subst hk
      obtain ⟨x, rfl, hx⟩ := hlong.known.eq_foreign
      rw [foreignChars_singleton hx]
      simp [Function.comp_def, advance_add, Token.ofForeign]
    · rw [foreignChars_eq_nil_iff.2 (hlong.known.mem_alphabet hk)]
      simp [hk, Function.comp_def, advance_add]

/-- The first illegal token of a source is its first foreign character. -/
theorem find?_illegal (source : List Char) :
    (scan source).find? (fun t => t.kind == .illegal) =
      (source.zipIdx.find? isForeign).map
        (fun e => Token.ofForeign e.1 (Position.ofIndex source e.2)) := by
  have hfirst := congrArg List.head? (Cursor.tokens_illegal (Cursor.start source))
  rw [List.head?_filter, List.head?_map] at hfirst
  have hhead : (foreignChars source).head? = source.zipIdx.find? isForeign := List.head?_filter
  show (Cursor.start source).tokens.1.find? _ = _
  rw [hfirst]
  show (foreignChars source).head?.map _ = _
  rw [hhead]
  cases hfound : source.zipIdx.find? isForeign with
  | none => rfl
  | some e =>
    obtain ⟨x, n⟩ := e
    have hn : n < source.length := List.snd_lt_of_mem_zipIdx (List.mem_of_find?_eq_some hfound)
    rw [Option.map_some, Option.map_some, Cursor.advance_position hn]

/-! ## Reports -/

/-- The report on a foreign character of a source. -/
def Report.ofForeign (source : List Char) (e : Char × Nat) : Report :=
  ⟨Report.illegalMessage (String.ofList [e.1]), Position.ofIndex source e.2, source⟩

theorem Report.upTo_natCast {α : Type} (k : Nat) (items : List α) :
    upTo k items = items.take k := by
  unfold upTo
  rw [if_neg (by omega), Int.toNat_natCast]

/-- **A report places a token in the whole source**, when the token is one of some of its lines. -/
theorem Report.ofToken_segment {source : List Char} {lead chunk trail : List (List Char)}
    (h : splitLines source = lead ++ (chunk ++ trail)) {n : Nat} (hn : n < chunk.flatten.length)
    (k : Kind) (literal : String) :
    Report.ofToken ⟨k, literal, some (Position.ofIndex chunk.flatten n)⟩ source lead.length =
      ⟨illegalMessage literal, Position.ofIndex source (lead.flatten.length + n), source⟩ := by
  -- the line of the chunk that holds the token is a line of the source, `lead` lines further down
  obtain ⟨x, hx⟩ : ∃ x, chunk.flatten[n]? = some x := ⟨_, List.getElem?_eq_getElem hn⟩
  obtain ⟨before, head, tail, after, rfl, rfl⟩ := exists_line_at hx
  have hlines : splitLines source =
      (lead ++ before) ++ (head ++ x :: tail) :: (after ++ trail) := by
    rw [h]
    simp
  have hi : head.length < (head ++ x :: tail).length := by simp
  have hinside := Position.ofIndex_append (splitLines_segment h) hi
  have hwhole := Position.ofIndex_append hlines hi
  have hupTo : upTo ((before.length : Int) + 1 + lead.length - 1) (splitLines source) =
      lead ++ before := by
    have hcount : (before.length : Int) + 1 + lead.length - 1 = (lead ++ before).length := by
      rw [List.length_append]
      omega
    rw [hcount, upTo_natCast, hlines, List.take_left]
  rw [List.flatten_append, List.length_append, List.length_append, Nat.add_assoc] at hwhole
  unfold ofToken
  rw [hinside, hwhole]
  simp only [Option.getD_some, hupTo, List.flatten_append, List.length_append]
  congr 2 <;> push_cast <;> omega

theorem firstIllegal?_segment {source : List Char} {lead chunk trail : List (List Char)}
    (h : splitLines source = lead ++ (chunk ++ trail)) :
    firstIllegal? (scan chunk.flatten) source lead.length =
      (chunk.flatten.zipIdx.find? isForeign).map
        (fun e => Report.ofForeign source (e.1, lead.flatten.length + e.2)) := by
  unfold firstIllegal?
  rw [find?_illegal, Option.map_map]
  cases hfound : chunk.flatten.zipIdx.find? isForeign with
  | none => rfl
  | some e =>
    obtain ⟨x, n⟩ := e
    have hn : n < chunk.flatten.length :=
      List.snd_lt_of_mem_zipIdx (List.mem_of_find?_eq_some hfound)
    exact congrArg some (Report.ofToken_segment h hn _ _)

end Lexline
