import Lexline.Proofs.Encoding
import Lexline.Proofs.Sightings

/-!
# The listing and the editor agree

A listing reads a file with its line endings unified; an editor has the text as it stands.  Both
show the same illegal characters.

* `Sighting.record`, `illegalRecords` — an illegal character in a JSON listing, and all of them.
* `illegalRecords_dump` — the records of illegal tokens are those of the sightings.
* `listLines_strict` — a strict listing fails at the first sighting, if there is one.
* `listing_agrees_with_diagnostics` — **a listing of a file and the diagnostics of its text** show
  the same illegal characters, in the same order, and a strict listing reports the first.
-/

namespace Lexline

open Text

/-- The line of a JSON listing that shows an illegal character. -/
def Sighting.record (s : Sighting) : List Char :=
  "\x7b\"type\": \"ILLEGAL\", \"literal\": ".toList ++ JsonText.encode s.literal.toList ++
    ", \"line\": ".toList ++ numeral s.line ++ ", \"column\": ".toList ++ numeral s.column ++
    "\x7d\n".toList

/-- How the record of an illegal character starts. -/
def illegalHead : List Char := "\x7b\"type\": \"ILLEGAL\"".toList

/-- The lines of a JSON listing that show illegal characters. -/
def illegalRecords (listing : List Char) : List (List Char) :=
  (feedLines listing).filter (fun line => illegalHead.isPrefixOf line)

/-- How a strict listing of a source with the given name reports on a diagnostic: the message, and
the line and the column, which count from one there. -/
def Diagnostic.heading (name : String) (d : Diagnostic) : List Char :=
  let line := numeral (d.start.line + 1)
  let column := numeral (d.start.character + 1)
  "error: ".toList ++ d.message.toList ++ '\n' ::
    (List.replicate (line.length + 1) ' ' ++ "--> ".toList ++ name.toList ++ ':' :: line ++
      ':' :: column) ++ ['\n']

/-! ## Records -/

/-- How the record of a token of a given kind starts. -/
def kindHead (k : Kind) : List Char := "\x7b\"type\": ".toList ++ JsonText.encode k.name.toList

theorem kindHead_illegal : kindHead .illegal = illegalHead := by decide

/-- Only the records of illegal tokens start like those of illegal tokens. -/
theorem isPrefixOf_kindHead (k : Kind) (rest : List Char) :
    illegalHead.isPrefixOf (kindHead k ++ rest) = (k == .illegal) := by
  have happart : ∀ k ∈ Kind.all, k ≠ .illegal →
      ¬ illegalHead <+: kindHead k ∧ ¬ kindHead k <+: illegalHead := by decide
  by_cases h : k = .illegal
  · rw [h, kindHead_illegal, List.isPrefixOf_iff_prefix.2 (List.prefix_append _ _)]
    rfl
  · obtain ⟨hleft, hright⟩ := happart k (Kind.mem_all k) h
    -- the two heads differ before either of them ends, so what follows does not matter
    have hnot : ¬ illegalHead <+: kindHead k ++ rest := by
      intro hpre
      rcases List.prefix_or_prefix_of_prefix hpre (List.prefix_append (kindHead k) rest) with h | h
      · exact hleft h
      · exact hright h
    rw [← List.isPrefixOf_iff_prefix] at hnot
    simp [hnot, h]

theorem json_eq (t : Token) : ∃ rest, Record.json 0 t ++ ['\n'] = kindHead t.kind ++ rest := by
  unfold Record.json kindHead
  exact ⟨_, by simp only [List.append_assoc]; rfl⟩

theorem json_of_illegal {t : Token} {p : Position} (h : t.kind = .illegal)
    (hp : t.position = some p) :
    Record.json 0 t ++ ['\n'] = Sighting.record ⟨p.line, p.column, t.literal⟩ := by
  have hstart : "\x7b\"type\": ".toList ++ JsonText.encode Kind.illegal.name.toList ++
      ", \"literal\": ".toList = "\x7b\"type\": \"ILLEGAL\", \"literal\": ".toList := by decide
  have hend : ['\x7d'] ++ ['\n'] = "\x7d\n".toList := by decide
  unfold Record.json Sighting.record
  rw [hp, Record.jsonPlace_some, Int.add_zero, h, hstart, List.append_assoc _ ['\x7d'], hend]
  simp only [List.append_assoc]

/-- **The records of illegal tokens are those of the sightings.** -/
theorem illegalRecords_dump {ts : List Token} (hts : ∀ t ∈ ts, ∃ p, t.position = some p) :
    illegalRecords (dump .json 0 ts) =
      (ts.filterMap Sighting.ofToken?).map Sighting.record := by
  unfold illegalRecords
  rw [feedLines_dump_json]
  induction ts with
  | nil => rfl
  | cons t ts ih =>
    obtain ⟨p, hp⟩ := hts t (by simp)
    obtain ⟨rest, hrest⟩ := json_eq t
    have hhead : illegalHead.isPrefixOf (Record.json 0 t ++ ['\n']) = (t.kind == .illegal) := by
      rw [hrest]
      exact isPrefixOf_kindHead t.kind rest
    have htail := ih (fun u hu => hts u (by simp [hu]))
    by_cases h : t.kind = .illegal
    · have hyes : illegalHead.isPrefixOf (Record.json 0 t ++ ['\n']) = true := by
        rw [hhead, h]; rfl
      rw [List.map_cons, List.filter_cons_of_pos hyes, htail, json_of_illegal h hp,
        List.filterMap_cons_some (Sighting.ofToken?_of_illegal h hp), List.map_cons]
    · have hno : ¬ illegalHead.isPrefixOf (Record.json 0 t ++ ['\n']) = true := by
        rw [hhead]; simp [h]
      rw [List.map_cons, List.filter_cons_of_neg hno, htail,
        List.filterMap_cons_none (Sighting.ofToken?_of_ne h)]

/-! ## Strict listings -/

/-- **A strict listing fails at the first sighting**, if there is one, and reports it. -/
theorem listLines_strict (format : Format) (name : String) (source : List Char) (k : Nat)
    {lines : List (List Char)} (hlines : ∀ line ∈ lines, ∃ rest, IsLine line rest) :
    let found := (lines.zipIdx k).flatMap (fun (line, i) => (sightings line).map (Sighting.below i))
    let outcome := listLines format true name source k lines
    (found = [] → outcome.code = 0) ∧
      ∀ s rest, found = s :: rest → outcome.code = 1 ∧
        Log.written .err outcome.log = (s.report source).render name ++ ['\n'] := by
  induction lines generalizing k with
  | nil => exact ⟨fun _ => rfl, fun s rest h => by cases h⟩
  | cons line lines ih =>
    obtain ⟨after, hline⟩ := hlines line (by simp)
    have hfirst : firstIllegal? (scan line) source k =
        (sightings line).head?.map (fun s => (s.below k).report source) :=
      firstIllegal?_eq (fun t ht => (scan_line_position hline ht).imp fun _ hp => hp.1) source k
    have hrest := ih (k + 1) (fun l hl => hlines l (by simp [hl]))
    simp only [List.zipIdx_cons, List.flatMap_cons, listLines, if_true, hfirst]
    -- a line with a sighting ends the listing; one without leaves it to the lines after it
    cases hseen : sightings line with
    | nil => exact hrest
    | cons s seen =>
      refine ⟨fun h => by simp at h, ?_⟩
      intro s' rest' h
      obtain ⟨rfl, _⟩ := List.cons.inj h
      refine ⟨rfl, ?_⟩
      simp [Log.written, Log.errLine, Log.err]

theorem heading_of_report (source : List Char) (name : String) (s : Sighting) :
    s.diagnostic.heading name <+: (s.report source).render name ++ ['\n'] := by
  have hline : s.diagnostic.start.line + 1 = s.line := Int.sub_add_cancel ..
  have hcolumn : s.diagnostic.start.character + 1 = s.column := Int.sub_add_cancel ..
  unfold Diagnostic.heading Report.render
  rw [hline, hcolumn]
  exact ⟨_, by simp only [List.append_assoc, List.cons_append, List.nil_append]; rfl⟩

/-! ## Both front ends -/

theorem readText_encode {fs : FileSystem} {path : Path} {document : List Char}
    (hfile : fs path = .file (Utf8.encode document)) :
    readText fs path = .ok (unifyBreaks document) := by
  have hbytes : readBytes fs path = .ok (Utf8.encode document) := by
    simp only [readBytes, hfile]
  simp only [readText, hbytes, Utf8.decode_encode]

theorem scan_position {source : List Char} {t : Token} (ht : t ∈ scan source) :
    ∃ p, t.position = some p := by
  obtain ⟨n, _, hp⟩ := Cursor.tokens_position ht
  exact ⟨_, hp⟩

theorem illegalRecords_listSource (name : String) (source : List Char) :
    illegalRecords (Log.written .out (listSource .json false name source).log) =
      (sightings source).map Sighting.record := by
  rw [listSource_plain, dump_lines, illegalRecords_dump (fun _ ht => scan_position ht)]
  rfl

theorem listSource_strict (format : Format) (name : String) (source : List Char) :
    (sightings source = [] → (listSource format true name source).code = 0) ∧
      ∀ s rest, sightings source = s :: rest → (listSource format true name source).code = 1 ∧
        s.diagnostic.heading name <+: Log.written .err (listSource format true name source).log := by
  have hlines : ∀ line ∈ splitLines source, ∃ rest, IsLine line rest :=
    fun line hline => mem_splitLines hline
  obtain ⟨hclean, hfirst⟩ := listLines_strict format name source 0 hlines
  rw [← sightings_eq_lines] at hclean hfirst
  refine ⟨hclean, ?_⟩
  intro s rest hs
  obtain ⟨hcode, herr⟩ := hfirst s rest hs
  refine ⟨hcode, ?_⟩
  rw [listSource, herr]
  exact heading_of_report source name s

/-- **A listing of a file and the diagnostics of its text agree**, whatever the line endings of the
text.  The records of illegal characters in a JSON listing are the diagnostics, one by one and in
order; and a strict listing fails exactly if there is a diagnostic, and then its report starts with
the message, the line and the column of the first one. -/
theorem listing_agrees_with_diagnostics (fs : FileSystem) (path : Path) (document : List Char)
    (hfile : fs path = .file (Utf8.encode document)) :
    (∃ (outcome : Outcome) (seen : List Sighting),
      listFile fs (some path) .json false = .ok outcome ∧ outcome.code = 0 ∧
        illegalRecords (Log.written .out outcome.log) = seen.map Sighting.record ∧
        diagnostics document = seen.map Sighting.diagnostic) ∧
    (∀ format, ∃ outcome, listFile fs (some path) format true = .ok outcome ∧
      (outcome.code = 1 ↔ diagnostics document ≠ []) ∧
      (outcome.code = 0 ↔ diagnostics document = []) ∧
      ∀ d ∈ (diagnostics document).head?,
        d.heading path.text <+: Log.written .err outcome.log) := by
  have hlisted : ∀ format strict, listFile fs (some path) format strict =
      .ok (listSource format strict path.text (unifyBreaks document)) := by
    intro format strict
    rw [listFile_eq, readText_encode hfile]
    rfl
  have hseen := sightings_unifyBreaks document
  have hshown := diagnostics_eq document
  constructor
  · refine ⟨_, sightings document, hlisted .json false, ?_, ?_, hshown⟩
    · rw [listSource, listLines_plain]
    · rw [illegalRecords_listSource, hseen]
  · intro format
    obtain ⟨hclean, hfirst⟩ := listSource_strict format path.text (unifyBreaks document)
    rw [hseen] at hclean hfirst
    refine ⟨_, hlisted format true, ?_⟩
    rw [hshown]
    cases hs : sightings document with
    | nil =>
      rw [hclean hs]
      simp
    | cons s rest =>
      obtain ⟨hcode, hheading⟩ := hfirst s rest hs
      rw [hcode]
      simpa using hheading

/-- A lone carriage return puts what follows it on the second line, for both. -/
theorem listing_agrees_after_lone_cr :
    let fs : FileSystem := fun _ => .file (Utf8.encode "\r@".toList)
    let path : Path := ⟨.here, ["at.ni"]⟩
    let d : Diagnostic := ⟨⟨1, 0⟩, ⟨1, 1⟩, "illegal character '@'", .error, "nipl"⟩
    fs path = .file (Utf8.encode "\r@".toList) ∧ d ∈ (diagnostics "\r@".toList).head? ∧
      ∃ outcome, listFile fs (some path) .json true = .ok outcome ∧ outcome.code = 1 ∧
        "error: illegal character '@'\n  --> at.ni:2:1\n".toList <+:
          Log.written .err outcome.log := by
  intro fs path d
  have hlines : splitLines "\r@".toList = [['\r'], ['@']] := by decide
  have hfirst : scan ['\r'] = [] := by
    rw [scan, Cursor.tokens_of_none (by decide)]
  have hsecond : scan ['@'] = [⟨.illegal, "@", some .start⟩] := by
    have hnext : (Cursor.start ['@']).next? =
        some (⟨.illegal, "@", some .start⟩, ⟨[], ⟨1, 2, 1⟩⟩) := by decide
    rw [scan, Cursor.tokens_of_some hnext, Cursor.tokens_of_none (by decide)]
  have hshown : diagnostics "\r@".toList = [d] := by
    unfold diagnostics
    rw [hlines]
    show lineDiagnostics 0 ['\r'] ++ (lineDiagnostics 1 ['@'] ++ []) = _
    unfold lineDiagnostics
    rw [hfirst, hsecond]
    decide
  have hfile : fs path = .file (Utf8.encode "\r@".toList) := rfl
  have hd : d ∈ (diagnostics "\r@".toList).head? := by rw [hshown]; rfl
  obtain ⟨outcome, hlisted, hcode, _, hreport⟩ :=
    (listing_agrees_with_diagnostics fs path "\r@".toList hfile).2 .json
  have hheading : d.heading path.text =
      "error: illegal character '@'\n  --> at.ni:2:1\n".toList := by decide
  refine ⟨hfile, hd, outcome, hlisted, hcode.2 (by rw [hshown]; simp), ?_⟩
  rw [← hheading]
  exact hreport d hd

end Lexline
