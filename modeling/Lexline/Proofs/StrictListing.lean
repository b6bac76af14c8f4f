import Lexline.Proofs.LoopListing

/-!
# Strict listings

A strict listing checks a line before it writes its records.  So it writes whole lines only, and
stops at the first line with a foreign character.

* `listLines_strict_clean`, `listLines_strict_stop` — a strict listing of lines that are all in the
  alphabet, and of lines with a foreign character in one of them.
* `FirstForeign` — where the first foreign character of a source stands, by lines.
* `listSource_strict_clean`, `FirstForeign.listSource_strict` — a strict listing of a source is a
  plain one of the whole, or one of the lines before the first foreign character, and a report.
* `runFile_undecodable` — a file that is no text is refused as a whole.
* `strict_listing_all_or_nothing` — **a strict listing is a plain one up to the first line with a
  foreign character**, and a file that is no text gives no listing at all.
-/

namespace Lexline

open Text

/-! ## Lines -/

theorem firstIllegal?_clean {line : List Char} (h : ∀ x ∈ line, inAlphabet x = true)
    (source : List Char) (k : Int) : firstIllegal? (scan line) source k = none := by
  have hnone : line.zipIdx.find? isForeign = none := by
    have hempty : foreignChars line = [] := foreignChars_eq_nil_iff.2 h
    rw [← List.head?_filter]
    show (foreignChars line).head? = none
    rw [hempty]
    rfl
  unfold firstIllegal?
  rw [find?_illegal, hnone]
  rfl

theorem firstIllegal?_line {source line : List Char} {lead trail : List (List Char)}
    (h : splitLines source = lead ++ line :: trail) :
    firstIllegal? (scan line) source lead.length = (line.zipIdx.find? isForeign).map
      (fun e => Report.ofForeign source (e.1, lead.flatten.length + e.2)) := by
  have hshape : splitLines source = lead ++ ([line] ++ trail) := h
  have hsegment := firstIllegal?_segment hshape
  rwa [List.flatten_singleton] at hsegment

variable {format : Format} {name : String} {source : List Char}

/-- Where all is in the alphabet, strict mode makes no difference. -/
theorem listLines_strict_clean {lines : List (List Char)}
    (h : ∀ line ∈ lines, ∀ x ∈ line, inAlphabet x = true) (k : Nat) :
    listLines format true name source k lines = listLines format false name source k lines := by
  induction lines generalizing k with
  | nil => rfl
  | cons line lines ih =>
    obtain ⟨hline, hlines⟩ := List.forall_mem_cons.1 h
    simp [listLines, firstIllegal?_clean hline, ih hlines]

/-- **A strict listing stops at the first line with something to report**: the records of the lines
before it, then the report, and nothing of the lines from it on. -/
theorem listLines_strict_stop {lead : List (List Char)}
    (hlead : ∀ line ∈ lead, ∀ x ∈ line, inAlphabet x = true) {line : List Char} {k : Nat}
    {report : Report} (hfirst : firstIllegal? (scan line) source (k + lead.length) = some report)
    (trail : List (List Char)) :
    listLines format true name source k (lead ++ line :: trail) =
      ⟨1, (lead.zipIdx k).map (fun (line, i) => Log.out (dump format i (scan line))) ++
        [Log.errLine (report.render name)]⟩ := by
  induction lead generalizing k with
  | nil =>
    have hreport : firstIllegal? (scan line) source k = some report := by simpa using hfirst
    simp [listLines, hreport]
  | cons first lead ih =>
    obtain ⟨hclean, hlead⟩ := List.forall_mem_cons.1 hlead
    have hindex : ((k + 1 : Nat) : Int) + lead.length = k + (first :: lead).length := by
      simp only [List.length_cons]
      omega
    have hrest := ih hlead (k := k + 1) (by rw [hindex]; exact hfirst)
    simp [listLines, firstIllegal?_clean hclean, hrest]

/-! ## Sources -/

theorem listSource_strict_clean (h : ∀ x ∈ source, inAlphabet x = true) :
    listSource format true name source = listSource format false name source := by
  refine listLines_strict_clean ?_ 0
  intro line hline x hx
  refine h x ?_
  rw [← flatten_splitLines source]
  exact List.mem_flatten.2 ⟨line, hline, hx⟩

/-- `x` is the first foreign character of a source.  It stands behind `head`, on the line that comes
after the lines `lead`. -/
structure FirstForeign (source : List Char) (lead : List (List Char)) (head : List Char)
    (x : Char) : Prop where
  lines : ∃ tail trail, splitLines source = lead ++ (head ++ x :: tail) :: trail
  before : ∀ y ∈ lead.flatten ++ head, inAlphabet y = true
  foreign : inAlphabet x = false

theorem exists_firstForeign_iff {source : List Char} :
    (∃ lead head x, FirstForeign source lead head x) ↔ ∃ x ∈ source, inAlphabet x = false := by
  constructor
  · rintro ⟨lead, head, x, ⟨⟨tail, trail, hlines⟩, _, hx⟩⟩
    refine ⟨x, ?_, hx⟩
    rw [← flatten_splitLines source, hlines]
    simp
  · rintro ⟨y, hy, hforeign⟩
    have hsome : (source.find? (fun x => !inAlphabet x)).isSome :=
      List.find?_isSome.2 ⟨y, hy, by simp [hforeign]⟩
    obtain ⟨x, hx⟩ := Option.isSome_iff_exists.1 hsome
    obtain ⟨hfirst, before, after, hsource, hbefore⟩ := List.find?_eq_some_iff_append.1 hx
    rw [← flatten_splitLines source] at hsource
    obtain ⟨lead, head, tail, trail, hlines, rfl⟩ := exists_line_around hsource
    exact ⟨lead, head, x, ⟨tail, trail, hlines⟩, by simpa using hbefore, by simpa using hfirst⟩

namespace FirstForeign

variable {lead : List (List Char)} {head : List Char} {x : Char}

/-- The report on the first foreign character of a source. -/
def report (source : List Char) (lead : List (List Char)) (head : List Char) (x : Char) : Report :=
  ⟨Report.illegalMessage (String.ofList [x]),
    ⟨lead.length + 1, head.length + 1, (lead.flatten ++ head).length⟩, source⟩

theorem splitLines_lead (h : FirstForeign source lead head x) :
    (splitLines source).take lead.length = lead ∧ splitLines lead.flatten = lead := by
  obtain ⟨tail, trail, hlines⟩ := h.lines
  have htake : (splitLines source).take lead.length = lead := by rw [hlines, List.take_left]
  have hfront := splitLines_take source lead.length
  rw [htake] at hfront
  exact ⟨htake, hfront⟩

theorem firstIllegal?_eq (h : FirstForeign source lead head x) {tail : List Char}
    {trail : List (List Char)} (hlines : splitLines source = lead ++ (head ++ x :: tail) :: trail) :
    firstIllegal? (scan (head ++ x :: tail)) source lead.length =
      some (report source lead head x) := by
  have hhead : ∀ y ∈ head, inAlphabet y = true :=
    fun y hy => h.before y (List.mem_append_right _ hy)
  have hplace := Position.ofIndex_append hlines (i := head.length) (by simp)
  rw [firstIllegal?_line hlines, find?_isForeign tail hhead h.foreign, Option.map_some]
  unfold Report.ofForeign report
  rw [hplace, List.length_append, Int.natCast_add]

/-- **A strict listing of a source with a foreign character** is a plain listing of the lines before
the one that holds the first, and a report on it. -/
theorem listSource_strict (h : FirstForeign source lead head x) (format : Format) (name : String) :
    listSource format true name source =
      ⟨1, (listSource format false name lead.flatten).log ++
        [Log.errLine ((report source lead head x).render name)]⟩ := by
  obtain ⟨tail, trail, hlines⟩ := h.lines
  have hclean : ∀ line ∈ lead, ∀ y ∈ line, inAlphabet y = true := by
    intro line hline y hy
    exact h.before y (List.mem_append_left _ (List.mem_flatten.2 ⟨line, hline, hy⟩))
  have hfirst : firstIllegal? (scan (head ++ x :: tail)) source (((0 : Nat) : Int) + lead.length) =
      some (report source lead head x) := by
    rw [Int.natCast_zero, Int.zero_add]
    exact h.firstIllegal?_eq hlines
  rw [listSource, hlines, listLines_strict_stop hclean hfirst, listSource, h.splitLines_lead.2,
    listLines_plain]

end FirstForeign

/-- The foreign characters of a source decide what a strict listing returns. -/
theorem listSource_strict_code (format : Format) (name : String) (source : List Char) :
    (listSource format true name source).code =
      if source.any (fun x => !inAlphabet x) then 1 else 0 := by
  cases hany : source.any (fun x => !inAlphabet x) with
  | false =>
    have hclean : ∀ x ∈ source, inAlphabet x = true := by simpa using hany
    rw [listSource_strict_clean hclean, listSource, listLines_plain]
    rfl
  | true =>
    obtain ⟨lead, head, x, hx⟩ := exists_firstForeign_iff.2 (by simpa using hany)
    rw [hx.listSource_strict]
    rfl

/-! ## Files -/

/-- A file that is no text is refused as a whole. -/
theorem runFile_undecodable {fs : FileSystem} {path : Path} {bytes : List UInt8}
    (hfile : fs path = .file bytes) (hbytes : ∀ text, bytes ≠ Utf8.encode text)
    (options : Options) : (runFile fs options path).completion = .returned 2 ∧
      Log.written .out (runFile fs options path).log = [] := by
  cases hdecode : Utf8.decode bytes with
  | ok text => exact absurd (Utf8.decode_eq_ok_iff.1 hdecode) (hbytes text)
  | error fault =>
    have hread : readText fs path = .error (.undecodable fault) := by
      simp only [readText, readBytes, hfile, hdecode]
    unfold runFile
    rw [listFile_eq, hread]
    exact ⟨rfl, rfl⟩

theorem written_err_plain (format : Format) (name : String) (source : List Char) :
    Log.written .err (listSource format false name source).log = [] := by
  rw [listSource, listLines_plain]
  unfold Log.written
  rw [List.filter_map]
  simp [Function.comp_def, Log.out]

/-- What a plain listing of some lines writes starts what one of more lines writes. -/
theorem written_listSource_take (format : Format) (name other : String) (source : List Char)
    (k : Nat) :
    Log.written .out (listSource format false name ((splitLines source).take k).flatten).log <+:
      Log.written .out (listSource format false other source).log := by
  rw [listSource_plain, listSource_plain, splitLines_take]
  conv_rhs => rw [← List.take_append_drop k (splitLines source)]
  rw [List.zipIdx_append, List.flatMap_append]
  exact List.prefix_append _ _

theorem runFile_of_listed {fs : FileSystem} {options : Options} {path : Path} {outcome : Outcome}
    (h : listFile fs (some path) options.format.format options.strict = .ok outcome) :
    runFile fs options path = ⟨.returned outcome.code, outcome.log⟩ := by
  unfold runFile
  rw [h]

/-- **A strict listing writes all of a line or nothing of it.**  A file that is no text is refused
as a whole.  Of any other file the plain listing returns zero and complains about nothing.  The
strict one returns one exactly if the text has a foreign character; then it writes what a plain
listing of the lines before the first of them writes, and one report.  Otherwise it is the plain
listing. -/
theorem strict_listing_all_or_nothing (p : Platform) (fs : FileSystem) (words : List String)
    (input : Input) (args : Args) (options : Options) (path : Path) (bytes : List UInt8)
    (hargs : Args.parse p.dropsMark words = .ok args)
    (hoptions : Options.resolve p.room fs args = .ok options)
    (hinput : options.input = some path) (hfile : fs path = .file bytes) :
    ((∀ text, bytes ≠ Utf8.encode text) →
      (run p fs input words).completion = .returned 2 ∧
        Log.written .out (run p fs input words).log = []) ∧
    (∀ text, bytes = Utf8.encode text →
      (∃ outcome, listFile fs (some path) options.format.format options.strict = .ok outcome ∧
        run p fs input words = ⟨.returned outcome.code, outcome.log⟩) ∧
      ∀ format, ∃ plain strict : Outcome,
        listFile fs (some path) format false = .ok plain ∧
        listFile fs (some path) format true = .ok strict ∧
        plain.code = 0 ∧ Log.written .err plain.log = [] ∧
        (strict.code = 0 ∨ strict.code = 1) ∧
        (strict.code = 1 ↔ ∃ x ∈ unifyBreaks text, inAlphabet x = false) ∧
        (strict.code = 0 → strict.log = plain.log) ∧
        (strict.code = 1 → ∃ lead head x, FirstForeign (unifyBreaks text) lead head x) ∧
        ∀ lead head x, FirstForeign (unifyBreaks text) lead head x →
          (∀ files other, files other = .file (Utf8.encode lead.flatten) →
            ∃ prior, listFile files (some other) format false = .ok prior ∧
              Log.written .out strict.log = Log.written .out prior.log) ∧
          Log.written .out strict.log <+: Log.written .out plain.log ∧
          Log.written .err strict.log =
            Report.render ⟨Report.illegalMessage (String.ofList [x]),
              ⟨lead.length + 1, head.length + 1, (lead.flatten ++ head).length⟩,
              unifyBreaks text⟩ path.text ++ ['\n']) := by
  rw [run_of_resolved hargs hoptions, hinput]
  simp only
  constructor
  · intro hbytes
    exact runFile_undecodable hfile hbytes options
  rintro text rfl
  have hlisted := listFile_encode hfile
  refine ⟨⟨_, hlisted _ _, runFile_of_listed (hlisted _ _)⟩, ?_⟩
  intro format
  have hcode := listSource_strict_code format path.text (unifyBreaks text)
  have hone : (listSource format true path.text (unifyBreaks text)).code = 1 ↔
      ∃ x ∈ unifyBreaks text, inAlphabet x = false := by
    rw [hcode]
    simp
  refine ⟨_, _, hlisted format false, hlisted format true, ?_, ?_, ?_, hone, ?_, ?_, ?_⟩
  · rw [listSource, listLines_plain]
  · exact written_err_plain format path.text (unifyBreaks text)
  · rw [hcode]
    split <;> simp
  · intro hzero
    have hclean : ∀ x ∈ unifyBreaks text, inAlphabet x = true := by simpa [hzero] using hcode
    rw [listSource_strict_clean hclean]
  · intro hstopped
    exact exists_firstForeign_iff.2 (hone.1 hstopped)
  · intro lead head x hfirst
    obtain ⟨htake, hlead⟩ := hfirst.splitLines_lead
    have hout : Log.written .out (listSource format true path.text (unifyBreaks text)).log =
        Log.written .out (listSource format false path.text lead.flatten).log := by
      rw [hfirst.listSource_strict, written_append]
      exact List.append_nil _
    refine ⟨?_, ?_, ?_⟩
    · intro files other hother
      have hunified := unifyBreaks_take_lines text lead.length
      rw [htake] at hunified
      refine ⟨_, listFile_encode hother format false, ?_⟩
      rw [hout, hunified, listSource_plain, listSource_plain]
    · rw [hout, ← htake]
      exact written_listSource_take format _ _ _ lead.length
    · rw [hfirst.listSource_strict, written_append, written_err_plain]
      simp [Log.written, Log.errLine, Log.err, FirstForeign.report]

/-- The second line has a foreign character behind a word: of that line and of the third nothing is
listed, and the report counts lines from the start of the file.  A file whose last line is no text
is not listed at all. -/
theorem strict_listing_stops_before_line :
    let p : Platform := ⟨100, false, false⟩
    let path : Path := ⟨.here, ["ab.ni"]⟩
    let holding : List UInt8 → FileSystem :=
      fun bytes found => if found = path then .file bytes else .missing
    let source := "a\nb @\nc".toList
    let sound := run p (holding (Utf8.encode source)) (.text []) ["--strict", "ab.ni"]
    let spoilt := run p (holding [0x61, 0x0A, 0xFF]) (.text []) ["--strict", "ab.ni"]
    sound.completion = .returned 1 ∧
      Log.written .out sound.log = "IDENT 'a'\n".toList ∧
      Log.written .err sound.log = ("error: illegal character '@'\n" ++ "  --> ab.ni:2:3\n" ++
        "  |\n" ++ "2 | b @\n" ++ "  |   ^\n").toList ∧
      spoilt.completion = .returned 2 ∧ Log.written .out spoilt.log = [] := by
  intro p path holding source sound spoilt
  have hargs : Args.parse p.dropsMark ["--strict", "ab.ni"] =
      .ok ⟨some "ab.ni", none, none, none, true, false⟩ := by cbv
  have hoptions : ∀ bytes, Options.resolve p.room (holding bytes)
      ⟨some "ab.ni", none, none, none, true, false⟩ =
        .ok ⟨some path, .value ">> ", true, .value .text, true⟩ := by
    intro bytes
    cbv
  have hat : ∀ bytes, holding bytes path = .file bytes := fun bytes => if_pos rfl
  have hunified : unifyBreaks source = source := by decide
  obtain ⟨⟨outcome, hlisted, hrun⟩, hboth⟩ :=
    (strict_listing_all_or_nothing p (holding (Utf8.encode source)) _ (.text []) _ _ path _ hargs
      (hoptions _) rfl (hat _)).2 source rfl
  obtain ⟨_, strict, _, hstrict, _, _, _, hcode, _, _, hstop⟩ := hboth .text
  obtain rfl : outcome = strict := Except.ok.inj (hlisted.symm.trans hstrict)
  have hfirst : FirstForeign (unifyBreaks source) ["a\n".toList] "b ".toList '@' :=
    ⟨⟨"\n".toList, ["c".toList], by decide⟩, List.all_eq_true.1 (by decide), by decide⟩
  obtain ⟨hprior, _, herr⟩ := hstop _ _ _ hfirst
  have hbefore : listFile (holding (Utf8.encode "a\n".toList)) (some path) .text false =
      .ok ⟨0, [Log.out "IDENT 'a'\n".toList]⟩ := by cbv
  obtain ⟨prior, hlead, hout⟩ := hprior (holding (Utf8.encode "a\n".toList)) path (hat _)
  obtain rfl := Except.ok.inj (hbefore.symm.trans hlead)
  have hbytes : ∀ text, [0x61, 0x0A, 0xFF] ≠ Utf8.encode text := by
    intro text h
    have hdecode : Utf8.decode [0x61, 0x0A, 0xFF] = .ok text := Utf8.decode_eq_ok_iff.2 h
    simp [Utf8.decode, Utf8.pieces, Utf8.first, Utf8.lead?, Utf8.assemble] at hdecode
  have hspoilt := (strict_listing_all_or_nothing p (holding [0x61, 0x0A, 0xFF]) _ (.text []) _ _
    path _ hargs (hoptions _) rfl (hat _)).1 hbytes
  refine ⟨?_, ?_, ?_, hspoilt⟩
  · show (run _ _ _ _).completion = _
    rw [hrun, hcode.2 ⟨'@', by decide, by decide⟩]
  · show Log.written .out (run _ _ _ _).log = _
    rw [hrun, hout]
    rfl
  · show Log.written .err (run _ _ _ _).log = _
    rw [hrun, herr, hunified]
    decide +kernel

end Lexline
