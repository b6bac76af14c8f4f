import Lexline.Proofs.Movement

/-!
# The one dissection of a source

A source is cut into blanks and lexemes: each lexeme is the longest one where it stands, and
between lexemes there are blanks only.  The tokens of a source are the parts of its dissection.

* `Part`, `Dissection` — a lexeme with its offset and the blanks after it, and what makes a list
  of parts a dissection of a text.
* `Dissection.cons_iff` — a dissection is its first part and a dissection of what follows.
* `Dissection.unique` — a text has at most one dissection.
* `tokens_dissection` — the tokens of a cursor are the parts of one.
* `tokenize_unique_dissection` — **the tokens of a source are its one and only dissection**,
  followed by one end token, and their offsets increase.
-/

namespace Lexline

/-- A lexeme of a text: its kind, its characters, its offset, and the blanks after it. -/
structure Part where
  kind : Kind
  lexeme : List Char
  offset : Int
  gap : List Char
  deriving DecidableEq, Repr

/-- The characters of a part. -/
def Part.text (p : Part) : List Char := p.lexeme ++ p.gap

/-- The characters of several parts, in order. -/
def spelling (parts : List Part) : List Char := parts.flatMap Part.text

/-- `Dissection base text lead parts`: the text, whose first character has the offset `base`, is
`lead` and then the parts; all between the lexemes is blank; and each lexeme stands at its offset
and is the longest one at the start of the text from there on. -/
structure Dissection (base : Int) (text lead : List Char) (parts : List Part) : Prop where
  covers : text = lead ++ spelling parts
  lead_blank : ∀ x ∈ lead, isSpace x = true
  gap_blank : ∀ p ∈ parts, ∀ x ∈ p.gap, isSpace x = true
  placed : ∀ before p after, parts = before ++ p :: after →
    p.offset = base + (lead ++ spelling before).length
  longest : ∀ before p after, parts = before ++ p :: after →
    LongestLexeme (spelling (p :: after)) p.kind p.lexeme

/-- What a token list shows of a token besides line and column: kind, literal and offset. -/
abbrev Entry := Kind × String × Option Int

/-- The entry of a token. -/
def Token.entry (t : Token) : Entry := (t.kind, t.literal, t.position.map Position.offset)

/-- The entry of a part. -/
def Part.entry (p : Part) : Entry := (p.kind, String.ofList p.lexeme, some p.offset)

/-- The entry of the end token of a text with `n` characters. -/
def endEntry (n : Nat) : Entry := (.eof, endLiteral, some n)

namespace Dissection

variable {base : Int} {text lead lead' : List Char} {p : Part} {parts parts' : List Part}

theorem nil_iff : Dissection base text lead [] ↔ text = lead ∧ ∀ x ∈ lead, isSpace x = true := by
  constructor
  · intro h
    exact ⟨by simpa [spelling] using h.covers, h.lead_blank⟩
  · rintro ⟨rfl, hblank⟩
    refine ⟨by simp [spelling], hblank, by simp, ?_, ?_⟩
    · intro before p after h; simp at h
    · intro before p after h; simp at h

/-- **A dissection is its first part and a dissection of what follows**; the blanks after the
first part lead what follows. -/
theorem cons_iff : Dissection base text lead (p :: parts) ↔
    (∀ x ∈ lead, isSpace x = true) ∧ p.offset = base + lead.length ∧
      ∃ rest, text = lead ++ (p.lexeme ++ rest) ∧ LongestLexeme (p.lexeme ++ rest) p.kind p.lexeme ∧
        Dissection (base + lead.length + p.lexeme.length) rest p.gap parts := by
  have hspell : ∀ ps : List Part, spelling (p :: ps) = p.lexeme ++ (p.gap ++ spelling ps) := by
    intro ps; simp [spelling, Part.text]
  constructor
  · intro h
    have hoffset := h.placed [] p parts rfl
    have hlong := h.longest [] p parts rfl
    rw [hspell] at hlong
    refine ⟨h.lead_blank, by simpa [spelling] using hoffset, p.gap ++ spelling parts, ?_, hlong, ?_⟩
    · rw [h.covers, hspell]
    · refine ⟨rfl, h.gap_blank p (by simp), fun q hq => h.gap_blank q (by simp [hq]), ?_, ?_⟩
      · intro before q after heq
        have hq := h.placed (p :: before) q after (by rw [heq]; rfl)
        rw [hq, hspell]
        simp only [List.length_append]
        push_cast
        omega
      · intro before q after heq
        exact h.longest (p :: before) q after (by rw [heq]; rfl)
  · rintro ⟨hlead, hoffset, rest, rfl, hlong, hrest⟩
    have hcovers := hrest.covers
    refine ⟨by rw [hspell, ← hcovers], hlead, ?_, ?_, ?_⟩
    · intro q hq
      rcases List.mem_cons.1 hq with rfl | hq
      · exact hrest.lead_blank
      · exact hrest.gap_blank q hq
    · -- the first part stands after `lead`, the others where the rest puts them
      intro before q after heq
      cases before with
      | nil =>
        obtain ⟨rfl, rfl⟩ := List.cons.inj heq
        simpa [spelling] using hoffset
      | cons r before =>
        obtain ⟨rfl, htail⟩ := List.cons.inj heq
        rw [hrest.placed before q after htail, hspell]
        simp only [List.length_append]
        push_cast
        omega
    · intro before q after heq
      cases before with
      | nil =>
        obtain ⟨rfl, rfl⟩ := List.cons.inj heq
        rw [hspell, ← hcovers]
        exact hlong
      | cons r before =>
        obtain ⟨rfl, htail⟩ := List.cons.inj heq
        exact hrest.longest before q after htail

/-- A text with a part is not all blank. -/
theorem not_all_blank (h : Dissection base text lead (p :: parts)) :
    ¬ ∀ x ∈ text, isSpace x = true := by
  obtain ⟨_, _, rest, rfl, hlong, _⟩ := cons_iff.1 h
  obtain ⟨c, w, hw, hopens⟩ := hlong.known.exists_cons
  intro hall
  have hc := hall c (by simp [hw])
  rw [hopens.isSpace_eq_false] at hc
  cases hc

/-- **A text has at most one dissection.** -/
theorem unique (h : Dissection base text lead parts) (h' : Dissection base text lead' parts') :
    lead = lead' ∧ parts = parts' := by
  induction parts generalizing base text lead lead' parts' with
  | nil =>
    obtain ⟨rfl, hblank⟩ := nil_iff.1 h
    cases parts' with
    | nil => exact ⟨(nil_iff.1 h').1, rfl⟩
    | cons q parts' => exact absurd hblank h'.not_all_blank
  | cons p parts ih =>
    cases parts' with
    | nil =>
      obtain ⟨rfl, hblank⟩ := nil_iff.1 h'
      exact absurd hblank h.not_all_blank
    | cons q parts' =>
      obtain ⟨hlead, hoffset, rest, rfl, hlong, hrest⟩ := cons_iff.1 h
      obtain ⟨hlead', hoffset', rest', htext, hlong', hrest'⟩ := cons_iff.1 h'
      -- both leads are the blanks at the start, so both first lexemes start the same text
      obtain ⟨htake, hdrop⟩ := Text.takeWhile_run hlead hlong.head_blank
      obtain ⟨htake', hdrop'⟩ := Text.takeWhile_run hlead' hlong'.head_blank
      rw [htext] at htake hdrop
      obtain rfl : lead' = lead := htake'.symm.trans htake
      have hsame : q.lexeme ++ rest' = p.lexeme ++ rest := hdrop'.symm.trans hdrop
      rw [hsame] at hlong'
      obtain ⟨hkind, hlexeme⟩ := hlong.unique hlong'
      rw [← hlexeme] at hsame hrest'
      obtain rfl : rest' = rest := List.append_cancel_left hsame
      obtain ⟨hgap, rfl⟩ := ih hrest hrest'
      have hpart : p = q := by
        obtain ⟨pk, pw, po, pg⟩ := p
        obtain ⟨qk, qw, qo, qg⟩ := q
        simp only at hkind hlexeme hgap hoffset hoffset'
        rw [hkind, hlexeme, hgap, hoffset, hoffset']
      exact ⟨rfl, by rw [hpart]⟩

/-- The offsets of the parts increase, from the end of the lead on and below the end of the
text. -/
theorem offsets (h : Dissection base text lead parts) :
    parts.Pairwise (fun q r => q.offset < r.offset) ∧
      ∀ q ∈ parts, base + lead.length ≤ q.offset ∧ q.offset < base + text.length := by
  induction parts generalizing base text lead with
  | nil => simp
  | cons p parts ih =>
    obtain ⟨_, hoffset, rest, rfl, hlong, hrest⟩ := cons_iff.1 h
    obtain ⟨hpair, hbounds⟩ := ih hrest
    have hpos : 0 < p.lexeme.length := hlong.known.length_pos
    simp only [List.length_append]
    push_cast
    refine ⟨List.pairwise_cons.2 ⟨?_, hpair⟩, ?_⟩
    · intro q hq
      have hq' := hbounds q hq
      omega
    · intro q hq
      rcases List.mem_cons.1 hq with rfl | hq
      · omega
      · have hq' := hbounds q hq
        omega

/-- No part is an end token. -/
theorem kind_ne_eof (h : Dissection base text lead parts) : ∀ q ∈ parts, q.kind ≠ .eof := by
  intro q hq
  obtain ⟨before, after, rfl⟩ := List.append_of_mem hq
  exact (h.longest before q after rfl).known.kind_ne_eof

end Dissection

/-! ## The tokens of a source -/

/-- **The tokens of a cursor are the parts of a dissection** of what it has to read. -/
theorem tokens_dissection (c : Cursor) : ∃ lead parts,
    Dissection c.position.offset c.rest lead parts ∧
      c.tokens.1.map Token.entry = parts.map Part.entry := by
  induction c using Cursor.tokens_induct with
  | done c h =>
    refine ⟨c.rest, [], Dissection.nil_iff.2 ⟨rfl, Cursor.next?_eq_none_iff.1 h⟩, ?_⟩
    rw [Cursor.tokens_of_none h]
    rfl
  | step c t d h ih =>
    obtain ⟨gap, parts, hrest, hentries⟩ := ih
    obtain ⟨lead, w, rest, k, htext, hlead, hlong, rfl, rfl⟩ := Cursor.next?_eq_some_iff.1 h
    rw [Cursor.rest_after htext, Cursor.advance_offset, Int.natCast_add, ← Int.add_assoc] at hrest
    refine ⟨lead, ⟨k, w, c.position.offset + lead.length, gap⟩ :: parts, ?_, ?_⟩
    · exact Dissection.cons_iff.2 ⟨hlead, rfl, rest, htext, hlong, hrest⟩
    · rw [Cursor.tokens_of_some h, List.map_cons, List.map_cons, hentries]
      simp [Token.entry, Part.entry, Cursor.advance_offset]

/-- The tokens of a source are the parts of its dissection and the end token. -/
theorem tokenize_dissection (source : List Char) : ∃ lead parts,
    Dissection 0 source lead parts ∧
      (tokenize source).map Token.entry = parts.map Part.entry ++ [endEntry source.length] := by
  obtain ⟨lead, parts, hdiss, hentries⟩ := tokens_dissection (Cursor.start source)
  refine ⟨lead, parts, hdiss, ?_⟩
  rw [tokenize, Cursor.tokenize_eq, List.map_append, hentries]
  simp [Token.entry, Cursor.endToken, endEntry, Cursor.advance_offset, Cursor.start, Position.start]

/-- **The tokens of a source are its one and only dissection** into blanks and longest lexemes,
followed by the end token at the end of the source.  There is no other end token, all tokens have
offsets, and these increase.  An illegal character is one that is no blank and starts no lexeme of
another kind. -/
theorem tokenize_unique_dissection (source : List Char) :
    (∀ entries : List Entry, entries = (tokenize source).map Token.entry ↔
      ∃ lead parts, Dissection 0 source lead parts ∧
        entries = parts.map Part.entry ++ [endEntry source.length]) ∧
    (∃ front last, tokenize source = front ++ [last] ∧ last.entry = endEntry source.length ∧
      ∀ t ∈ front, t.kind ≠ .eof) ∧
    (∃ offsets : List Int, (tokenize source).map (fun t => t.position.map Position.offset) =
      offsets.map some ∧ offsets.Pairwise (· < ·)) ∧
    (∀ w, InLexicon .illegal w ↔ ∃ c, w = [c] ∧ isSpace c = false ∧
      ∀ k v, k ≠ .illegal → ¬ InLexicon k (c :: v)) := by
  obtain ⟨lead, parts, hdiss, hentries⟩ := tokenize_dissection source
  refine ⟨?_, ?_, ?_, fun w => inLexicon_illegal_iff⟩
  · intro entries
    constructor
    · rintro rfl
      exact ⟨lead, parts, hdiss, hentries⟩
    · rintro ⟨lead', parts', hdiss', rfl⟩
      obtain ⟨_, rfl⟩ := hdiss.unique hdiss'
      exact hentries.symm
  · obtain ⟨front, tail, htokens, hfront, htail⟩ := List.map_eq_append_iff.1 hentries
    obtain ⟨last, rfl, hlast⟩ := List.map_eq_singleton_iff.1 htail
    refine ⟨front, last, htokens, hlast, ?_⟩
    intro t ht heof
    have hmem : t.entry ∈ parts.map Part.entry := hfront ▸ List.mem_map_of_mem ht
    obtain ⟨p, hp, hentry⟩ := List.mem_map.1 hmem
    have hkind : p.kind = t.kind := congrArg Prod.fst hentry
    exact hdiss.kind_ne_eof p hp (hkind.trans heof)
  · obtain ⟨hpair, hbounds⟩ := hdiss.offsets
    refine ⟨parts.map Part.offset ++ [(source.length : Int)], ?_, ?_⟩
    · have hoffsets := congrArg (List.map (fun e : Entry => e.2.2)) hentries
      simpa [Token.entry, Part.entry, endEntry, Function.comp_def] using hoffsets
    · rw [List.pairwise_append]
      refine ⟨List.pairwise_map.2 hpair, by simp, ?_⟩
      intro a ha b hb
      obtain ⟨p, hp, rfl⟩ := List.mem_map.1 ha
      obtain rfl := List.mem_singleton.1 hb
      have hp' := (hbounds p hp).2
      omega

end Lexline
