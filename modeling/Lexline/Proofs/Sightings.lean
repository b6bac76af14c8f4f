import Lexline.Proofs.LineByLine
import Lexline.Server
import Mathlib.Data.List.Basic

/-!
# Illegal characters of a source

An editor and a listing show the illegal characters of a source each in its own way.  Both are read
off one list of sightings.

* `Sighting`, `sightings` — the illegal characters of a source, with their lines and columns.
* `sightings_eq_lines` — those of a source are those of its lines.
* `sightings_unifyBreaks` — **unifying the line endings changes no sighting**.
* `diagnostics_eq` — the diagnostics of a document are its sightings.
* `firstIllegal?_eq` — the report on a line is one on its first sighting.
-/

namespace Lexline

open Text

/-- An illegal character: its line and its column, from one, and its text. -/
structure Sighting where
  line : Int
  column : Int
  literal : String
  deriving DecidableEq, Repr

namespace Sighting

/-- The sighting that a token gives, if it is illegal and has a position. -/
def ofToken? (t : Token) : Option Sighting :=
  match t.kind, t.position with
  | .illegal, some p => some ⟨p.line, p.column, t.literal⟩
  | _, _ => none

/-- A sighting on a line that has `k` lines before it in the whole source. -/
def below (k : Nat) (s : Sighting) : Sighting := ⟨s.line + k, s.column, s.literal⟩

/-- What an editor shows: lines and characters count from zero there. -/
def diagnostic (s : Sighting) : Diagnostic :=
  ⟨⟨s.line - 1, s.column - 1⟩, ⟨s.line - 1, s.column⟩, "illegal character " ++ quote s.literal,
    .error, "nipl"⟩

/-- What a strict listing reports. -/
def report (source : List Char) (s : Sighting) : Report :=
  ⟨Report.illegalMessage s.literal,
    ⟨s.line, s.column,
      (Report.upTo (s.line - 1) (splitLines source)).flatten.length + s.column - 1⟩, source⟩

theorem ofToken?_of_ne {t : Token} (h : t.kind ≠ .illegal) : ofToken? t = none := by
  unfold ofToken?
  split
  · rename_i hkind _
    exact absurd hkind h
  · rfl

theorem ofToken?_of_illegal {t : Token} {p : Position} (h : t.kind = .illegal)
    (hp : t.position = some p) : ofToken? t = some ⟨p.line, p.column, t.literal⟩ := by
  unfold ofToken?
  rw [h, hp]

theorem ofToken?_shift (k n : Nat) (t : Token) :
    ofToken? (t.shift k n) = (ofToken? t).map (below k) := by
  by_cases h : t.kind = .illegal
  · cases hp : t.position with
    | none => simp [ofToken?, Token.shift, Token.carry, h, hp]
    | some p => simp [ofToken?, Token.shift, Token.carry, h, hp, Position.shift, below]
  · have hshift : (t.shift k n).kind ≠ .illegal := h
    rw [ofToken?_of_ne h, ofToken?_of_ne hshift]
    rfl

end Sighting

/-- The illegal characters of a source, in order. -/
def sightings (source : List Char) : List Sighting := (scan source).filterMap Sighting.ofToken?

/-- **The sightings of a source are those of its lines.** -/
theorem sightings_eq_lines (source : List Char) :
    sightings source = (splitLines source).zipIdx.flatMap (fun (line, k) =>
      (sightings line).map (Sighting.below k)) := by
  unfold sightings
  rw [scan_eq_lines source, List.filterMap_flatMap]
  refine List.flatMap_congr ?_
  rintro ⟨line, k⟩ _
  show ((scan line).map _).filterMap Sighting.ofToken? =
    ((scan line).filterMap Sighting.ofToken?).map (Sighting.below k)
  rw [List.filterMap_map, List.map_filterMap]
  exact List.filterMap_congr (fun t _ => Sighting.ofToken?_shift k _ t)

/-! ## Tokens of one line -/

/-- In a line by itself, a cursor moves along its first line. -/
theorem Cursor.start_advance_line {line rest : List Char} (h : IsLine line rest) {n : Nat}
    (hn : n < line.length) : ((start line).advance n).position = Position.start.along n := by
  have hline : (advance ⟨line ++ [], .start⟩ n).position = Position.start.along n :=
    advance_line h.at_end .start hn
  rwa [List.append_nil] at hline

/-- Every token of a line stands on it. -/
theorem scan_line_position {line rest : List Char} (h : IsLine line rest) {t : Token}
    (ht : t ∈ scan line) : ∃ p, t.position = some p ∧ p.line = 1 := by
  obtain ⟨n, hn, hp⟩ := Cursor.tokens_position ht
  exact ⟨_, hp, by rw [Cursor.start_advance_line h hn]; rfl⟩

/-- The ending of a line has no say in what its tokens are. -/
theorem scan_unifyBreaks {line rest : List Char} (h : IsLine line rest) :
    scan (unifyBreaks line) = scan line := by
  have hbody : ∀ (body b : List Char), (∀ x ∈ b, isSpace x = true) →
      scan (body ++ b) = scan body := by
    intro body b hb
    exact Cursor.tokens_extend_blank hb (Cursor.start body)
  have hfeed : ∀ x ∈ ['\n'], isSpace x = true := by simp [isSpace, spaces]
  cases h with
  | closed plain ending =>
    rw [unifyBreaks_closed plain ending, hbody _ _ (isSpace_of_break ending), hbody _ _ hfeed]
  | last plain => rw [unifyBreaks_of_isPlain plain]

/-- What is put together from the lines of a text is the same if it is so for every line. -/
theorem Text.flatMap_lines_congr {α : Type} {text : List Char} {f g : List Char × Nat → List α}
    (h : ∀ line rest k, IsLine line rest → f (line, k) = g (line, k)) :
    (splitLines text).zipIdx.flatMap f = (splitLines text).zipIdx.flatMap g := by
  refine List.flatMap_congr ?_
  rintro ⟨line, k⟩ hmem
  obtain ⟨rest, hline⟩ := mem_splitLines (List.fst_mem_of_mem_zipIdx hmem)
  exact h line rest k hline

/-- **Unifying the line endings of a source changes no sighting.** -/
theorem sightings_unifyBreaks (source : List Char) :
    sightings (unifyBreaks source) = sightings source := by
  rw [sightings_eq_lines, sightings_eq_lines source, splitLines_unifyBreaks, List.zipIdx_map,
    List.flatMap_map]
  refine flatMap_lines_congr ?_
  intro line rest k hline
  show (sightings (unifyBreaks line)).map (Sighting.below k) =
    (sightings line).map (Sighting.below k)
  unfold sightings
  rw [scan_unifyBreaks hline]

/-! ## What is shown of a sighting -/

theorem Diagnostic.ofToken?_eq {t : Token} {p : Position} (hp : t.position = some p)
    (hline : p.line = 1) (k : Nat) :
    Diagnostic.ofToken? k t =
      (Sighting.ofToken? t).map (fun s => (s.below k).diagnostic) := by
  by_cases h : t.kind = .illegal
  · have hk : p.line + k - 1 = k := by omega
    rw [Sighting.ofToken?_of_illegal h hp]
    unfold Diagnostic.ofToken?
    rw [h, hp]
    show some (⟨⟨k, p.column - 1⟩, ⟨k, p.column⟩, Report.illegalMessage t.literal, .error,
        "nipl"⟩ : Diagnostic) =
      some ⟨⟨p.line + k - 1, p.column - 1⟩, ⟨p.line + k - 1, p.column⟩,
        Report.illegalMessage t.literal, .error, "nipl"⟩
    rw [hk]
  · rw [Sighting.ofToken?_of_ne h]
    unfold Diagnostic.ofToken?
    split
    · rename_i hkind _
      exact absurd hkind h
    · rfl

/-- **The diagnostics of a document are its sightings.** -/
theorem diagnostics_eq (document : List Char) :
    diagnostics document = (sightings document).map Sighting.diagnostic := by
  rw [sightings_eq_lines, List.map_flatMap, diagnostics]
  refine flatMap_lines_congr ?_
  intro line rest k hline
  show lineDiagnostics k line = ((sightings line).map (Sighting.below k)).map Sighting.diagnostic
  unfold lineDiagnostics sightings
  rw [List.map_map, List.map_filterMap]
  refine List.filterMap_congr ?_
  intro t ht
  obtain ⟨p, hp, hone⟩ := scan_line_position hline ht
  exact Diagnostic.ofToken?_eq hp hone k

/-- The report on some tokens is one on the first sighting among them. -/
theorem firstIllegal?_eq {ts : List Token} (hts : ∀ t ∈ ts, ∃ p, t.position = some p)
    (source : List Char) (k : Nat) :
    firstIllegal? ts source k = (ts.filterMap Sighting.ofToken?).head?.map
      (fun s => (s.below k).report source) := by
  induction ts with
  | nil => rfl
  | cons t ts ih =>
    obtain ⟨p, hp⟩ := hts t (by simp)
    by_cases h : t.kind = .illegal
    · rw [List.filterMap_cons_some (Sighting.ofToken?_of_illegal h hp)]
      simp [firstIllegal?, h, Report.ofToken, hp, Sighting.below, Sighting.report]
    · have hrest := ih (fun u hu => hts u (by simp [hu]))
      rw [List.filterMap_cons_none (Sighting.ofToken?_of_ne h), ← hrest]
      simp [firstIllegal?, h]

end Lexline
