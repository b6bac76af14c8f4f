import Lexline.Proofs.LineByLine

/-!
# Tokens written and scanned again

The literals of tokens, with blanks between them, scan to the same tokens.

* `Token.WellFormed` — a token that the lexicon has.
* `Spaced` — a text of literals with blanks between neighbours.
* `LongestLexeme.before_blank` — a lexeme ends where a blank follows it, whatever its kind.
* `tokens_spaced` — **a spaced text scans to its tokens**, by induction along them.
* `tokens_wellFormed` — every token of a scan is in the lexicon.
* `tokenize_spaced_round_trip` — **writing tokens and scanning them again gives them back**, and
  the token lists of sources are just those of well-formed tokens.
-/

namespace Lexline

/-- A token that the lexicon has. -/
def Token.WellFormed (t : Token) : Prop := InLexicon t.kind t.literal.toList

/-- `Spaced ts text`: the text is the literals of the tokens, in order, with at least one blank
between neighbours and nothing around them. -/
inductive Spaced : List Token → List Char → Prop
  | nil : Spaced [] []
  | single (t : Token) : Spaced [t] t.literal.toList
  | cons {t u : Token} {ts : List Token} {gap text : List Char} (apart : gap ≠ [])
      (blank : ∀ x ∈ gap, isSpace x = true) (rest : Spaced (u :: ts) text) :
      Spaced (t :: u :: ts) (t.literal.toList ++ (gap ++ text))

/-- Equality of token lists, which leaves the positions out. -/
def sameTokens (ts us : List Token) : Bool := ts.isEqv us Token.same

/-- The end token, wherever it stands. -/
def endMark : Token := ⟨.eof, endLiteral, none⟩

/-! ## Equality of tokens -/

/-- What equality of tokens looks at. -/
def Token.face (t : Token) : Kind × String := (t.kind, t.literal)

theorem sameTokens_iff {ts us : List Token} :
    sameTokens ts us = true ↔ ts.map Token.face = us.map Token.face := by
  have hsame : ∀ t u : Token, t.same u = true ↔ t.face = u.face := by
    intro t u
    simp [Token.same, Token.face]
  induction ts generalizing us with
  | nil => cases us <;> simp [sameTokens, List.isEqv]
  | cons t ts ih =>
    cases us with
    | nil => simp [sameTokens, List.isEqv]
    | cons u us =>
      show (t.same u && sameTokens ts us) = true ↔ t.face :: ts.map _ = u.face :: us.map _
      rw [Bool.and_eq_true, List.cons.injEq]
      exact and_congr (hsame t u) ih

theorem wellFormed_of_face {t u : Token} (h : t.face = u.face) (ht : t.WellFormed) :
    u.WellFormed := by
  obtain ⟨hkind, hliteral⟩ := Prod.mk.inj h
  unfold Token.WellFormed at ht ⊢
  rwa [← hkind, ← hliteral]

/-! ## Scanning spaced literals -/

/-- **A lexeme ends where a blank follows it**, whatever its kind, and where the text ends. -/
theorem LongestLexeme.before_blank {k : Kind} {w more : List Char} (known : InLexicon k w)
    (hmore : ∀ x ∈ more.head?, isSpace x = true) : LongestLexeme (w ++ more) k w := by
  refine .of_append known ?_
  intro k' x v hmem hpre
  obtain ⟨tail, rfl⟩ := hpre
  have hx := hmem.isSpace_eq_false x (by simp)
  rw [hmore x rfl] at hx
  cases hx

namespace Cursor

theorem tokens_blank {c : Cursor} (h : ∀ x ∈ c.rest, isSpace x = true) : c.tokens.1 = [] := by
  rw [tokens_of_none (next?_eq_none_iff.2 h)]

/-- One step along a spaced text: blanks, a lexeme, and what a blank starts. -/
theorem tokens_lexeme {c : Cursor} {k : Kind} {lead w more : List Char}
    (hc : c.rest = lead ++ (w ++ more)) (hlead : ∀ x ∈ lead, isSpace x = true)
    (known : InLexicon k w) (hmore : ∀ x ∈ more.head?, isSpace x = true) :
    ∃ (p : Position) (d : Cursor), d.rest = more ∧
      c.tokens.1 = ⟨k, String.ofList w, some p⟩ :: d.tokens.1 := by
  have hlong := LongestLexeme.before_blank known hmore
  have hnext := next?_eq_some_iff.2 ⟨lead, w, more, k, hc, hlead, hlong, rfl, rfl⟩
  exact ⟨_, _, rest_after hc, by rw [tokens_of_some hnext]⟩

/-- **A spaced text scans to its tokens**, with any blanks before it and after it. -/
theorem tokens_spaced {ts : List Token} {text : List Char} (h : Spaced ts text)
    (hts : ∀ t ∈ ts, t.WellFormed) {c : Cursor} {lead trail : List Char}
    (hc : c.rest = lead ++ (text ++ trail)) (hlead : ∀ x ∈ lead, isSpace x = true)
    (htrail : ∀ x ∈ trail, isSpace x = true) :
    c.tokens.1.map Token.face = ts.map Token.face := by
  induction h generalizing c lead with
  | nil =>
    have hblank : ∀ x ∈ c.rest, isSpace x = true := by
      rw [hc]
      simpa [or_imp, forall_and] using ⟨hlead, htrail⟩
    rw [tokens_blank hblank, List.map_nil]
  | single t =>
    have hhead : ∀ x ∈ trail.head?, isSpace x = true :=
      fun x hx => htrail x (List.mem_of_mem_head? hx)
    obtain ⟨p, d, hd, htokens⟩ := tokens_lexeme hc hlead (hts t (by simp)) hhead
    rw [htokens, tokens_blank (by rw [hd]; exact htrail)]
    simp [Token.face]
  | @cons t u ts gap text apart blank _ ih =>
    obtain ⟨ht, hrest⟩ := List.forall_mem_cons.1 hts
    obtain ⟨y, gap', rfl⟩ := List.exists_cons_of_ne_nil apart
    have hhead : ∀ x ∈ (y :: gap' ++ (text ++ trail)).head?, isSpace x = true := by
      intro x hx
      obtain rfl : y = x := by simpa using hx
      exact blank y (by simp)
    obtain ⟨p, d, hd, htokens⟩ := tokens_lexeme (by simpa using hc) hlead ht hhead
    rw [htokens, List.map_cons, List.map_cons, ih hrest hd blank]
    simp [Token.face]

/-- **Every token of a scan is in the lexicon.** -/
theorem tokens_wellFormed (c : Cursor) : ∀ t ∈ c.tokens.1, t.WellFormed := by
  induction c using tokens_induct with
  | done c h =>
    rw [tokens_of_none h]
    simp
  | step c t d h ih =>
    obtain ⟨lead, w, rest, k, _, _, hlong, rfl, rfl⟩ := next?_eq_some_iff.1 h
    rw [tokens_of_some h]
    refine List.forall_mem_cons.2 ⟨?_, ih⟩
    show InLexicon k (String.ofList w).toList
    rw [String.toList_ofList]
    exact hlong.known

end Cursor

/-! ## Whole sources -/

theorem tokenize_face (source : List Char) :
    (tokenize source).map Token.face = (scan source).map Token.face ++ [endMark.face] := by
  have htokens := congrArg Prod.fst (Cursor.tokenize_eq (Cursor.start source))
  show (Cursor.start source).tokenize.1.map Token.face = _
  rw [htokens, List.map_append]
  rfl

/-- Literals joined by single spaces are spaced. -/
theorem spaced_intercalate (ts : List Token) :
    Spaced ts ([' '].intercalate (ts.map (fun t => t.literal.toList))) := by
  have hblank : ∀ x ∈ [' '], isSpace x = true := List.all_eq_true.1 (by decide)
  induction ts with
  | nil => exact .nil
  | cons t ts ih =>
    cases ts with
    | nil => simpa using Spaced.single t
    | cons u ts =>
      have hcons := Spaced.cons (t := t) (by simp) hblank ih
      simpa [List.intercalate, List.intersperse] using hcons

theorem tokenize_spaced {ts : List Token} {text lead trail : List Char} (h : Spaced ts text)
    (hts : ∀ t ∈ ts, t.WellFormed) (hlead : ∀ x ∈ lead, isSpace x = true)
    (htrail : ∀ x ∈ trail, isSpace x = true) :
    sameTokens (tokenize (lead ++ (text ++ trail))) (ts ++ [endMark]) = true := by
  have hscan : (scan (lead ++ (text ++ trail))).map Token.face = ts.map Token.face :=
    Cursor.tokens_spaced h hts rfl hlead htrail
  rw [sameTokens_iff, tokenize_face, hscan, List.map_append]
  rfl

/-- **Writing tokens and scanning them again gives them back.**  Well-formed tokens, written with
blanks between them and around them, scan to the same tokens and the end token.  Every source scans
to well-formed tokens and the end token, so that these are the lists that scans give; and the
literals of a source's tokens, joined by spaces, scan to the tokens of the source. -/
theorem tokenize_spaced_round_trip :
    (∀ (ts : List Token) (text lead trail : List Char), (∀ t ∈ ts, t.WellFormed) →
      Spaced ts text → (∀ x ∈ lead, isSpace x = true) → (∀ x ∈ trail, isSpace x = true) →
      sameTokens (tokenize (lead ++ (text ++ trail))) (ts ++ [endMark]) = true) ∧
    (∀ source, ∃ ts, (∀ t ∈ ts, t.WellFormed) ∧ ∃ last, tokenize source = ts ++ [last] ∧
      last.same endMark = true) ∧
    (∀ ts, (∃ source, sameTokens (tokenize source) (ts ++ [endMark]) = true) ↔
      ∀ t ∈ ts, t.WellFormed) ∧
    (∀ source, sameTokens (tokenize ([' '].intercalate
      ((tokenize source).dropLast.map (fun t => t.literal.toList)))) (tokenize source) = true) := by
  have hblank : ∀ x ∈ ([] : List Char), isSpace x = true := by simp
  have hjoined : ∀ ts : List Token, (∀ t ∈ ts, t.WellFormed) →
      sameTokens (tokenize ([' '].intercalate (ts.map (fun t => t.literal.toList))))
        (ts ++ [endMark]) = true := by
    intro ts hts
    have hspaced := tokenize_spaced (spaced_intercalate ts) hts hblank hblank
    simpa using hspaced
  refine ⟨?_, ?_, ?_, ?_⟩
  · intro ts text lead trail hts hspaced hlead htrail
    exact tokenize_spaced hspaced hts hlead htrail
  · intro source
    have htokens := congrArg Prod.fst (Cursor.tokenize_eq (Cursor.start source))
    exact ⟨scan source, Cursor.tokens_wellFormed _, _, htokens, rfl⟩
  · intro ts
    constructor
    · -- each token of the list has the face of one that a scan gives
      rintro ⟨source, hsame⟩ t ht
      rw [sameTokens_iff, tokenize_face, List.map_append] at hsame
      have hfaces := List.append_inj_left' hsame rfl
      have hmem : t.face ∈ (scan source).map Token.face := hfaces ▸ List.mem_map_of_mem ht
      obtain ⟨u, hu, hface⟩ := List.mem_map.1 hmem
      exact wellFormed_of_face hface (Cursor.tokens_wellFormed _ u hu)
    · intro hts
      exact ⟨_, hjoined ts hts⟩
  · intro source
    rw [tokenize_dropLast]
    have hagain := hjoined (scan source) (Cursor.tokens_wellFormed _)
    rw [sameTokens_iff] at hagain ⊢
    rw [hagain, tokenize_face, List.map_append]
    rfl

/-- Blanks of any sort keep apart what would otherwise be one lexeme, and an illegal NUL is no end
of the source. -/
theorem tokenize_neighbours_kept_apart :
    let ts : List Token := [⟨.assign, "=", none⟩, ⟨.assign, "=", none⟩, ⟨.letWord, "let", none⟩,
      ⟨.int, "07", none⟩, ⟨.illegal, "\x00", none⟩]
    (∀ t ∈ ts, t.WellFormed) ∧ Spaced ts "= =\rlet\n\t07\r\n\x00".toList ∧
      sameTokens (tokenize "\t= =\rlet\n\t07\r\n\x00\r".toList) (ts ++ [endMark]) = true := by
  intro ts
  have hassign : InLexicon .assign ['='] :=
    .alone (by decide : ('=', Kind.assign, Kind.eq) ∈ pairedOperators)
  have hlet : InLexicon .letWord "let".toList := .keyword (by decide)
  have hint : InLexicon .int "07".toList :=
    .int (by decide) (List.all_eq_true.1 (by decide))
  have hnul : InLexicon .illegal ['\x00'] := .illegal (by decide) (by decide)
  have hts : ∀ t ∈ ts, t.WellFormed := by
    simpa [ts, Token.WellFormed] using ⟨hassign, hlet, hint, hnul⟩
  have hlast : Spaced (ts.drop 4) "\x00".toList := .single _
  have hnumber : Spaced (ts.drop 3) "07\r\n\x00".toList :=
    .cons (by decide : "\r\n".toList ≠ []) (List.all_eq_true.1 (by decide)) hlast
  have hword : Spaced (ts.drop 2) "let\n\t07\r\n\x00".toList :=
    .cons (by decide : "\n\t".toList ≠ []) (List.all_eq_true.1 (by decide)) hnumber
  have hsecond : Spaced (ts.drop 1) "=\rlet\n\t07\r\n\x00".toList :=
    .cons (by decide : "\r".toList ≠ []) (List.all_eq_true.1 (by decide)) hword
  have hspaced : Spaced ts "= =\rlet\n\t07\r\n\x00".toList :=
    .cons (by decide : " ".toList ≠ []) (List.all_eq_true.1 (by decide)) hsecond
  have hback := tokenize_spaced_round_trip.1 ts _ "\t".toList "\r".toList hts hspaced
    (List.all_eq_true.1 (by decide)) (List.all_eq_true.1 (by decide))
  exact ⟨hts, hspaced, hback⟩

end Lexline
