import Lexline.Proofs.Alphabet
import Lexline.Proofs.Sightings

/-!
# What the diagnostics of a document mark

A diagnostic stands for one character of the document.  Which characters have one, and where it is
shown, can be told from the characters alone, without lines and tokens.

* `breakEndsAt`, `breaksBefore`, `lineStart` — line breaks by the indices of their characters.
* `advance_eq_breaks` — **a cursor stands on the line and in the column that the breaks before it
  give**, wherever it has moved to.
* `sightings_eq_foreign` — the illegal characters of a source are its foreign ones.
* `Spot.ofIndex_injective` — no two characters are shown at one place.
* `diagnostics_mark_foreign` — **the diagnostics of a document are its foreign characters**, in
  order, one for each, and each at its place.
-/

namespace Lexline

open Text

/-! ## Line breaks by index -/

/-- Whether a line break is complete with the character at an index: a line feed, by itself or after
a carriage return, or a carriage return that no line feed follows. -/
def breakEndsAt (source : List Char) (i : Nat) : Bool :=
  source[i]? == some '\n' || (source[i]? == some '\r' && source[i + 1]? != some '\n')

/-- The number of line breaks that are complete before an index. -/
def breaksBefore (source : List Char) (p : Nat) : Nat := (List.range p).countP (breakEndsAt source)

/-- The index at which the line of an index starts. -/
def lineStart (source : List Char) : Nat → Nat
  | 0 => 0
  | p + 1 => if breakEndsAt source p then p + 1 else lineStart source p

theorem breaksBefore_succ (source : List Char) (p : Nat) : breaksBefore source (p + 1) =
    breaksBefore source p + if breakEndsAt source p then 1 else 0 := by
  rw [breaksBefore, List.range_succ, List.countP_append, List.countP_singleton]
  rfl

/-- A cursor sees the end of a line where a line break is complete. -/
theorem endsLine_drop (source : List Char) (p : Nat) :
    endsLine (source.drop p) = breakEndsAt source p := by
  cases h : source.drop p with
  | nil =>
    have hnone : source[p]? = none := List.getElem?_eq_none (List.drop_eq_nil_iff.1 h)
    simp [endsLine, breakEndsAt, hnone]
  | cons c rest =>
    have hc : source[p]? = some c := by
      rw [← List.head?_drop, h]
      rfl
    have hrest : rest.head? = source[p + 1]? := by
      rw [← List.head?_drop, ← List.drop_drop, h]
      rfl
    simp [endsLine, breakEndsAt, hc, hrest]

/-- **Where a cursor stands**: as many lines down as there are breaks before it, and as many columns
on as there are characters since the last of them. -/
theorem Cursor.advance_eq_breaks (source : List Char) (p : Nat) :
    ((start source).advance p).position =
      ⟨breaksBefore source p + 1, p - lineStart source p + 1, p⟩ := by
  induction p with
  | zero => rfl
  | succ p ih =>
    have hrest : ((start source).advance p).rest = source.drop p := advance_rest ..
    rw [advance_succ, read, hrest, endsLine_drop, ih, breaksBefore_succ, lineStart]
    cases breakEndsAt source p with
    | true => refine Position.eq_of_parts ?_ ?_ ?_ <;> simp [Position.nextLine]
    | false =>
      refine Position.eq_of_parts ?_ ?_ ?_ <;> simp [Position.nextColumn]
      omega

/-! ## Places of characters -/

/-- Where an editor shows the character at an index. -/
def Spot.ofIndex (source : List Char) (p : Nat) : Spot :=
  ⟨breaksBefore source p, p - lineStart source p⟩

/-- The diagnostic of the character at an index. -/
def Diagnostic.ofChar (source : List Char) (p : Nat) (x : Char) : Diagnostic :=
  let spot := Spot.ofIndex source p
  ⟨spot, ⟨spot.line, spot.character + 1⟩, "illegal character " ++ quote (String.ofList [x]), .error,
    "nipl"⟩

/-- Further on in a source there is another line break before, or the line is still the same. -/
theorem breaksBefore_add (source : List Char) (p n : Nat) :
    breaksBefore source p < breaksBefore source (p + n) ∨
      breaksBefore source (p + n) = breaksBefore source p ∧
        lineStart source (p + n) = lineStart source p := by
  induction n with
  | zero => exact Or.inr ⟨rfl, rfl⟩
  | succ n ih =>
    rw [← Nat.add_assoc, breaksBefore_succ, lineStart]
    cases breakEndsAt source (p + n) with
    | true =>
      left
      simp only [if_true]
      omega
    | false => simpa using ih

/-- **No two characters are shown at one place.** -/
theorem Spot.ofIndex_injective {source : List Char} {p q : Nat}
    (h : ofIndex source p = ofIndex source q) : p = q := by
  have hlater : ∀ p n, ofIndex source p = ofIndex source (p + n) → n = 0 := by
    intro p n h
    obtain ⟨hline, hcharacter⟩ := Spot.mk.inj h
    rcases breaksBefore_add source p n with hlt | ⟨_, hstart⟩
    · omega
    · rw [hstart] at hcharacter
      omega
  rcases Nat.le_total p q with hle | hle
  · obtain ⟨n, rfl⟩ := Nat.exists_eq_add_of_le hle
    rw [hlater p n h, Nat.add_zero]
  · obtain ⟨n, rfl⟩ := Nat.exists_eq_add_of_le hle
    rw [hlater q n h.symm, Nat.add_zero]

/-! ## Sightings -/

theorem filterMap_illegal (ts : List Token) :
    ts.filterMap Sighting.ofToken? =
      (ts.filter (fun t => t.kind == .illegal)).filterMap Sighting.ofToken? := by
  rw [List.filterMap_filter]
  refine List.filterMap_congr ?_
  intro t _
  by_cases h : t.kind = .illegal
  · simp [h]
  · simp [h, Sighting.ofToken?_of_ne h]

/-- **The illegal characters of a source are its foreign ones**, each where a cursor meets it. -/
theorem sightings_eq_advance (source : List Char) :
    sightings source = (foreignChars source).map (fun (x, p) =>
      let place := ((Cursor.start source).advance p).position
      ⟨place.line, place.column, String.ofList [x]⟩) := by
  have hillegal := Cursor.tokens_illegal (Cursor.start source)
  unfold sightings scan
  rw [filterMap_illegal, hillegal, List.filterMap_map, ← List.filterMap_eq_map]
  rfl

/-- The illegal characters of a source, by the line breaks before them. -/
theorem sightings_eq_foreign (source : List Char) :
    sightings source = (foreignChars source).map (fun (x, p) =>
      ⟨breaksBefore source p + 1, p - lineStart source p + 1, String.ofList [x]⟩) := by
  simp only [sightings_eq_advance, Cursor.advance_eq_breaks]

theorem diagnostics_eq_foreign (source : List Char) :
    diagnostics source =
      (foreignChars source).map (fun (x, p) => Diagnostic.ofChar source p x) := by
  rw [diagnostics_eq, sightings_eq_foreign, List.map_map]
  refine List.map_congr_left ?_
  rintro ⟨x, p⟩ _
  simp [Sighting.diagnostic, Diagnostic.ofChar, Spot.ofIndex]

theorem pairwise_zipIdx {α : Type} (items : List α) :
    items.zipIdx.Pairwise (fun e f => e.2 < f.2) := by
  have hindices : (items.zipIdx.map Prod.snd).Pairwise (· < ·) := by
    rw [List.zipIdx_map_snd]
    exact List.pairwise_lt_range'
  exact List.pairwise_map.1 hindices

theorem pairwise_foreignChars (text : List Char) :
    (foreignChars text).Pairwise (fun e f => e.2 < f.2) :=
  (pairwise_zipIdx text).filter _

/-! ## Diagnostics -/

/-- **The diagnostics of a document are its foreign characters**: the characters that are no blank,
no letter, no underscore, no digit and no mark of the language, whatever stands around them.  There
is one for each, in the order of the document.  It starts on the line given by the number of line
breaks before the character, as many characters on as there are since the start of that line, and it
ends one character further.  So a character has a diagnostic at its place exactly if it is
foreign. -/
theorem diagnostics_mark_foreign (source : List Char) :
    (∃ marked : List (Char × Nat), marked.Pairwise (fun e f => e.2 < f.2) ∧
      (∀ x p, (x, p) ∈ marked ↔ source[p]? = some x ∧ inAlphabet x = false) ∧
      diagnostics source = marked.map (fun (x, p) =>
        ⟨⟨breaksBefore source p, p - lineStart source p⟩,
          ⟨breaksBefore source p, p - lineStart source p + 1⟩,
          "illegal character " ++ quote (String.ofList [x]), .error, "nipl"⟩)) ∧
    ∀ x p, source[p]? = some x →
      ((∃ d ∈ diagnostics source, d.start = ⟨breaksBefore source p, p - lineStart source p⟩) ↔
        inAlphabet x = false) := by
  have hshown := diagnostics_eq_foreign source
  refine ⟨⟨foreignChars source, pairwise_foreignChars source, fun x p => mem_foreignChars_iff,
    hshown⟩, ?_⟩
  intro x p hx
  rw [hshown]
  constructor
  · rintro ⟨d, hd, hplace⟩
    obtain ⟨⟨y, q⟩, hmem, rfl⟩ := List.mem_map.1 hd
    obtain ⟨hy, hforeign⟩ := mem_foreignChars_iff.1 hmem
    obtain rfl : q = p := Spot.ofIndex_injective hplace
    obtain rfl : x = y := Option.some.inj (hx.symm.trans hy)
    exact hforeign
  · intro hforeign
    exact ⟨_, List.mem_map.2 ⟨(x, p), mem_foreignChars_iff.2 ⟨hx, hforeign⟩, rfl⟩, rfl⟩

/-- A carriage return and a line feed are one break, and the character behind the operator on the
next line is marked although an equals sign follows it. -/
theorem diagnostics_mark_after_crlf :
    let source := "a\r\n<@=".toList
    source[4]? = some '@' ∧ (∃ d ∈ diagnostics source, d.start = ⟨1, 1⟩) ∧
      ¬ ∃ d ∈ diagnostics source, d.start = ⟨1, 2⟩ := by
  intro source
  have hat : source[4]? = some '@' := by decide
  have hequals : source[5]? = some '=' := by decide
  have hmarked := (diagnostics_mark_foreign source).2
  refine ⟨hat, (hmarked '@' 4 hat).2 (by decide), ?_⟩
  intro hshown
  exact absurd ((hmarked '=' 5 hequals).1 hshown) (by decide)

end Lexline
