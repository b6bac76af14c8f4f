import Lexline.Proofs.Diagnosis
import Lexline.Text.Escape
import Mathlib.Data.List.Forall2

/-!
# Ranges read in UTF-16 units

A diagnostic counts the characters of a line.  An editor that is told nothing else counts UTF-16
units, of which a character above U+FFFF has two.

* `unitCount`, `unitHolders` — the UTF-16 units of a text, and the characters that they belong to.
* `getElem?_unitHolders`, `idxOf?_unitHolders` — **the units of a character are those from the count
  before it to the count with it**.
* `Site`, `foreignSites` — the foreign characters of a document by line and index.
* `diagnostics_eq_sites` — the diagnostics of a document are its foreign characters, line by line.
* `Spot.Designates`, `Diagnostic.Covers` — what an editor that counts units makes of a place and of
  a range.
* `diagnostics_in_units` — **when such an editor marks the right character**, and by how much it
  misses it otherwise.
-/

namespace Lexline

namespace Text

/-! ## Units of a text -/

/-- Whether a character has two UTF-16 units. -/
def isSupplementary (c : Char) : Bool := 0xffff < c.toNat

/-- The number of UTF-16 units of a text. -/
def unitCount (text : List Char) : Nat := (text.flatMap JsonText.units).length

/-- For each UTF-16 unit of a text, the index of the character that it belongs to. -/
def unitHolders (text : List Char) : List Nat :=
  text.zipIdx.flatMap (fun (c, i) => (JsonText.units c).map (fun _ => i))

theorem length_units (c : Char) :
    (JsonText.units c).length = 1 + if isSupplementary c then 1 else 0 := by
  unfold JsonText.units isSupplementary
  by_cases h : c.toNat < 0x10000
  · have hnot : ¬ 0xffff < c.toNat := by omega
    simp [h, hnot]
  · have hlarge : 0xffff < c.toNat := by omega
    simp [h, hlarge]

theorem unitCount_cons (c : Char) (text : List Char) :
    unitCount (c :: text) = (JsonText.units c).length + unitCount text := by
  simp [unitCount]

theorem unitCount_append (a b : List Char) : unitCount (a ++ b) = unitCount a + unitCount b := by
  simp [unitCount]

/-- **A text has a unit for each character, and one more for each supplementary one.** -/
theorem unitCount_eq (text : List Char) :
    unitCount text = text.length + text.countP isSupplementary := by
  induction text with
  | nil => rfl
  | cons c text ih =>
    rw [unitCount_cons, length_units, ih, List.length_cons, List.countP_cons]
    omega

theorem unitCount_take_succ {text : List Char} {i : Nat} {c : Char} (h : text[i]? = some c) :
    unitCount (text.take (i + 1)) = unitCount (text.take i) + (JsonText.units c).length := by
  rw [List.take_add_one, h, unitCount_append]
  simp [unitCount]

theorem unitHolders_cons (c : Char) (text : List Char) :
    unitHolders (c :: text) =
      (JsonText.units c).map (fun _ => 0) ++ (unitHolders text).map (· + 1) := by
  unfold unitHolders
  rw [List.zipIdx_cons', List.flatMap_cons, List.flatMap_map, List.map_flatMap]
  simp

/-- **The units of a character** are those from the count before it to the count with it. -/
theorem getElem?_unitHolders {text : List Char} {n i : Nat} :
    (unitHolders text)[n]? = some i ↔
      unitCount (text.take i) ≤ n ∧ n < unitCount (text.take (i + 1)) := by
  induction text generalizing n i with
  | nil => simp [unitHolders, unitCount]
  | cons c text ih =>
    rw [unitHolders_cons]
    by_cases hn : n < (JsonText.units c).length
    · -- a unit of the first character
      have hholder : ((JsonText.units c).map (fun _ => 0) ++ (unitHolders text).map (· + 1))[n]? =
          some 0 := by
        rw [List.getElem?_append_left (by simpa using hn), List.getElem?_map,
          List.getElem?_eq_getElem hn]
        rfl
      rw [hholder]
      cases i with
      | zero => simp [unitCount, hn]
      | succ i =>
        rw [List.take_succ_cons, unitCount_cons]
        simp
        omega
    · obtain ⟨m, rfl⟩ : ∃ m, n = (JsonText.units c).length + m := Nat.exists_eq_add_of_le (by omega)
      have hholder : ((JsonText.units c).map (fun _ => 0) ++
          (unitHolders text).map (· + 1))[(JsonText.units c).length + m]? =
            (unitHolders text)[m]?.map (· + 1) := by
        rw [List.getElem?_append_right (by simp), List.length_map, Nat.add_sub_cancel_left,
          List.getElem?_map]
      rw [hholder]
      cases i with
      | zero => simp [unitCount]
      | succ i =>
        rw [List.take_succ_cons, List.take_succ_cons, unitCount_cons, unitCount_cons,
          Nat.add_le_add_iff_left, Nat.add_lt_add_iff_left, ← ih]
        simp

/-- The first unit of a character comes right after those of the characters before it. -/
theorem idxOf?_unitHolders {text : List Char} {i : Nat} {c : Char} (h : text[i]? = some c) :
    (unitHolders text).idxOf? i = some (unitCount (text.take i)) := by
  have hstep := unitCount_take_succ h
  have hunits := length_units c
  have hfirst : (unitHolders text)[unitCount (text.take i)]? = some i :=
    getElem?_unitHolders.2 (by omega)
  obtain ⟨hlt, heq⟩ := List.getElem?_eq_some_iff.1 hfirst
  refine List.idxOf?_eq_some_iff.2 ⟨hlt, heq, ?_⟩
  intro n hn hsame
  have hholder : (unitHolders text)[n]? = some i :=
    List.getElem?_eq_some_iff.2 ⟨Nat.lt_trans hn hlt, hsame⟩
  have hle := (getElem?_unitHolders.1 hholder).1
  omega

end Text

open Text

/-! ## Foreign characters by line -/

/-- A character of a document: the index of its line, that line, its index there, and itself. -/
structure Site where
  row : Nat
  line : List Char
  index : Nat
  char : Char

namespace Site

/-- The text in front of a character on its line. -/
def lead (s : Site) : List Char := s.line.take s.index

/-- The site is one of a document, and its character is foreign. -/
structure IsForeign (document : List Char) (s : Site) : Prop where
  line_eq : (splitLines document)[s.row]? = some s.line
  char_eq : s.line[s.index]? = some s.char
  foreign : inAlphabet s.char = false

/-- The order of the characters of a document. -/
def Before (s t : Site) : Prop := s.row < t.row ∨ s.row = t.row ∧ s.index < t.index

/-- The diagnostic of a foreign character: its range counts characters. -/
def diagnostic (s : Site) : Diagnostic :=
  ⟨⟨s.row, s.index⟩, ⟨s.row, s.index + 1⟩,
    "illegal character " ++ quote (String.ofList [s.char]), .error, "nipl"⟩

end Site

/-- The foreign characters of a document, line by line. -/
def foreignSites (document : List Char) : List Site :=
  (splitLines document).zipIdx.flatMap (fun (line, k) =>
    (foreignChars line).map (fun (x, i) => ⟨k, line, i, x⟩))

theorem mem_foreignSites_iff {document : List Char} {s : Site} :
    s ∈ foreignSites document ↔ s.IsForeign document := by
  unfold foreignSites
  constructor
  · intro h
    obtain ⟨⟨line, k⟩, hline, hs⟩ := List.mem_flatMap.1 h
    obtain ⟨⟨x, i⟩, hx, rfl⟩ := List.mem_map.1 hs
    obtain ⟨hchar, hforeign⟩ := mem_foreignChars_iff.1 hx
    exact ⟨List.mk_mem_zipIdx_iff_getElem?.1 hline, hchar, hforeign⟩
  · rintro ⟨hline, hchar, hforeign⟩
    exact List.mem_flatMap.2 ⟨(s.line, s.row), List.mk_mem_zipIdx_iff_getElem?.2 hline,
      List.mem_map.2 ⟨(s.char, s.index), mem_foreignChars_iff.2 ⟨hchar, hforeign⟩, rfl⟩⟩

theorem pairwise_foreignSites (document : List Char) :
    (foreignSites document).Pairwise Site.Before := by
  refine List.pairwise_flatMap.2 ⟨?_, ?_⟩
  · rintro ⟨line, k⟩ _
    refine List.pairwise_map.2 ((pairwise_foreignChars line).imp ?_)
    intro e f hlt
    exact Or.inr ⟨rfl, hlt⟩
  · refine (pairwise_zipIdx (splitLines document)).imp ?_
    rintro ⟨line, k⟩ ⟨line', k'⟩ hlt s hs t ht
    obtain ⟨_, _, rfl⟩ := List.mem_map.1 hs
    obtain ⟨_, _, rfl⟩ := List.mem_map.1 ht
    exact Or.inl hlt

theorem sightings_line {line rest : List Char} (h : IsLine line rest) :
    sightings line = (foreignChars line).map (fun (x, i) => ⟨1, i + 1, String.ofList [x]⟩) := by
  rw [sightings_eq_advance]
  refine List.map_congr_left ?_
  rintro ⟨x, i⟩ hmem
  obtain ⟨hi, _⟩ := List.getElem?_eq_some_iff.1 (mem_foreignChars_iff.1 hmem).1
  show (⟨_, _, _⟩ : Sighting) = _
  rw [Cursor.start_advance_line h hi]
  simp [Position.along, Position.start, Int.add_comm]

/-- **The diagnostics of a document are its foreign characters, line by line.** -/
theorem diagnostics_eq_sites (document : List Char) :
    diagnostics document = (foreignSites document).map Site.diagnostic := by
  rw [diagnostics_eq, sightings_eq_lines, foreignSites, List.map_flatMap, List.map_flatMap]
  refine flatMap_lines_congr ?_
  intro line rest k hline
  show ((sightings line).map (Sighting.below k)).map Sighting.diagnostic =
    ((foreignChars line).map _).map Site.diagnostic
  rw [sightings_line hline, List.map_map, List.map_map, List.map_map]
  refine List.map_congr_left ?_
  rintro ⟨x, i⟩ _
  have hrow : (1 : Int) + k - 1 = k := by omega
  simp [Sighting.below, Sighting.diagnostic, Site.diagnostic, hrow]

/-! ## Read in units -/

/-- To an editor that counts UTF-16 units, a place designates a character if it is on its line, at
its first unit. -/
def Spot.Designates (spot : Spot) (s : Site) : Prop :=
  ∃ n : Nat, (unitHolders s.line).idxOf? s.index = some n ∧ spot = ⟨s.row, n⟩

/-- To an editor that counts UTF-16 units, a range covers a character if it is on its line, and the
units in the range are those of the character. -/
structure Diagnostic.Covers (d : Diagnostic) (s : Site) : Prop where
  start_line : d.start.line = s.row
  stop_line : d.stop.line = s.row
  units : ∀ n : Nat, d.start.character ≤ n ∧ n < d.stop.character ↔
    (unitHolders s.line)[n]? = some s.index

/-- `d` is the diagnostic of the character at `s`, and so it is read by an editor that counts UTF-16
units.  What such an editor does with a place past the end of a line is of no concern: the range
ends with the character at the latest. -/
structure ReadInUnits (s : Site) (d : Diagnostic) : Prop where
  start_eq : d.start = ⟨s.row, s.index⟩
  stop_eq : d.stop = ⟨s.row, s.index + 1⟩
  message_eq : d.message = "illegal character " ++ quote (String.ofList [s.char])
  severity_eq : d.severity = .error
  source_eq : d.source = "nipl"
  designates_iff : d.start.Designates s ↔ ∀ y ∈ s.lead, y.toNat ≤ 0xffff
  covers_iff : d.Covers s ↔ (∀ y ∈ s.lead, y.toNat ≤ 0xffff) ∧ s.char.toNat ≤ 0xffff
  too_small : d.start.character + s.lead.countP isSupplementary = unitCount s.lead

theorem countP_isSupplementary_eq_zero_iff {text : List Char} :
    text.countP isSupplementary = 0 ↔ ∀ y ∈ text, y.toNat ≤ 0xffff := by
  simp [List.countP_eq_zero, isSupplementary]

/-- A run of numbers is that of one number alone if it starts with this one and has no other. -/
theorem run_eq_single_iff {a i w : Nat} (hw : 0 < w) :
    (∀ n, i ≤ n ∧ n < i + 1 ↔ a ≤ n ∧ n < a + w) ↔ a = i ∧ w = 1 := by
  constructor
  · intro hrun
    have hfirst := (hrun i).1 (by omega)
    have hstart := (hrun a).2 (by omega)
    have hlast := (hrun (a + w - 1)).2 (by omega)
    omega
  · rintro ⟨rfl, rfl⟩ n
    exact Iff.rfl

namespace Site

variable {s : Site}

theorem unitCount_lead (h : s.line[s.index]? = some s.char) :
    unitCount s.lead = s.index + s.lead.countP isSupplementary := by
  obtain ⟨hlt, _⟩ := List.getElem?_eq_some_iff.1 h
  rw [unitCount_eq, lead, List.length_take_of_le (Nat.le_of_lt hlt)]

theorem designates_iff (h : s.line[s.index]? = some s.char) :
    s.diagnostic.start.Designates s ↔ s.lead.countP isSupplementary = 0 := by
  have hcount := unitCount_lead h
  have hfirst : (unitHolders s.line).idxOf? s.index = some (unitCount s.lead) :=
    idxOf?_unitHolders h
  unfold Spot.Designates
  rw [hfirst]
  constructor
  · rintro ⟨n, hn, hspot⟩
    obtain rfl := Option.some.inj hn
    have hcharacter : (s.index : Int) = unitCount s.lead := (Spot.mk.inj hspot).2
    omega
  · intro hzero
    refine ⟨unitCount s.lead, rfl, ?_⟩
    rw [hcount, hzero]
    rfl

theorem covers_iff (h : s.line[s.index]? = some s.char) :
    s.diagnostic.Covers s ↔ s.lead.countP isSupplementary = 0 ∧ isSupplementary s.char = false := by
  have hholders : ∀ n, (unitHolders s.line)[n]? = some s.index ↔
      unitCount s.lead ≤ n ∧ n < unitCount s.lead + (JsonText.units s.char).length := by
    intro n
    rw [getElem?_unitHolders, unitCount_take_succ h]
    rfl
  have hcovers : s.diagnostic.Covers s ↔ ∀ n, s.index ≤ n ∧ n < s.index + 1 ↔
      unitCount s.lead ≤ n ∧ n < unitCount s.lead + (JsonText.units s.char).length := by
    have hrange : ∀ n : Nat, (s.diagnostic.start.character ≤ n ∧ n < s.diagnostic.stop.character) ↔
        s.index ≤ n ∧ n < s.index + 1 := by
      intro n
      simp only [diagnostic]
      omega
    constructor
    · intro hcovered n
      rw [← hrange, ← hholders, hcovered.units]
    · intro hrun
      exact ⟨rfl, rfl, fun n => by rw [hrange, hholders, hrun]⟩
  have hlength := length_units s.char
  rw [hcovers, run_eq_single_iff (by omega), unitCount_lead h, hlength]
  cases isSupplementary s.char <;> simp

/-- **A diagnostic of a foreign character, read in UTF-16 units.** -/
theorem readInUnits (h : s.line[s.index]? = some s.char) : ReadInUnits s s.diagnostic := by
  refine ⟨rfl, rfl, rfl, rfl, rfl, ?_, ?_, ?_⟩
  · rw [designates_iff h, countP_isSupplementary_eq_zero_iff]
  · rw [covers_iff h, countP_isSupplementary_eq_zero_iff]
    simp [isSupplementary]
  · show (s.index : Int) + _ = _
    rw [unitCount_lead h]
    push_cast
    rfl

end Site

/-- **When an editor that counts UTF-16 units marks the right character.**  The diagnostics of a
document are about its foreign characters, one for each and in order.  Read in UTF-16 units, one
starts at its character exactly if no character above U+FFFF stands in front of it on its line, and
it covers the character and nothing else exactly if that is not above U+FFFF either.  In every
other case it starts too early, by the number of such characters in front of it on its line. -/
theorem diagnostics_in_units (document : List Char) :
    ∃ sites : List Site, sites.Pairwise Site.Before ∧
      (∀ s, s ∈ sites ↔ s.IsForeign document) ∧
      List.Forall₂ ReadInUnits sites (diagnostics document) := by
  refine ⟨foreignSites document, pairwise_foreignSites document,
    fun s => mem_foreignSites_iff, ?_⟩
  rw [diagnostics_eq_sites, List.forall₂_map_right_iff, List.forall₂_same]
  intro s hs
  exact Site.readInUnits (mem_foreignSites_iff.1 hs).char_eq

/-- Behind a supplementary character the next one is shown at the second unit of that. -/
example : (diagnostics "a😀@".toList).map Diagnostic.start = [⟨0, 1⟩, ⟨0, 2⟩] ∧
    unitHolders "a😀@".toList = [0, 1, 1, 2] := by
  rw [diagnostics_eq_sites]
  decide

end Lexline
