import Lexline.Proofs.FrontEnds
import Lexline.Proofs.Session
import Mathlib

/-!
# The read loop and the listing agree

A session asks for line after line until one ends it; a listing cuts a whole file.  On the lines
that the session hears both write the same records.

* `written_session` — what a plain session writes on each stream.
* `run_of_resolved` — a run is a session, or a listing of a file; `run_of_prompt`, `run_of_bare`:
  what the prompt has to do with it.
* `splitLines_heard` — what a session hears has just the lines that it hears.
* `json_onLine_shift` — a record moved to the first line is that of the line scanned by itself.
* `session_agrees_with_listing` — **a plain session writes what a listing of the lines that it hears
  writes**; in JSON its records are all on line one.
-/

namespace Lexline

open Text

/-! ## What a plain session writes -/

theorem written_append (stream : Stream) (a b : Log) :
    Log.written stream (a ++ b) = Log.written stream a ++ Log.written stream b := by
  simp [Log.written]

theorem written_flatMap {α : Type} (stream : Stream) (items : List α) (f : α → Log) :
    Log.written stream (items.flatMap f) = items.flatMap (fun x => Log.written stream (f x)) := by
  induction items with
  | nil => rfl
  | cons x items ih => rw [List.flatMap_cons, List.flatMap_cons, written_append, ih]

namespace Loop

/-- The settings of a plain session: no prompt, no banner, no complaints. -/
def plain (format : Format) : Settings := ⟨"", false, format, false⟩

theorem written_session (format : Format) (text : List Char) :
    Log.written .out (session (plain format) (.ofText text)) =
        (heard (feedLines text)).flatMap (fun line => dump format 0 (scan line)) ∧
      Log.written .err (session (plain format) (.ofText text)) = [] := by
  have hlog : session (plain format) (.ofText text) =
      (heard (feedLines text)).flatMap
          (fun line => [Log.out [], Log.out (dump format 0 (scan line))]) ++ [Log.out []] := by
    show greeting (plain format) ++ rounds (plain format) .endOfInput (feedLines text) = _
    rw [rounds_eq]
    simp [plain, greeting, ask, echo, farewell]
  rw [hlog, written_append, written_append, written_flatMap, written_flatMap]
  constructor
  · simp [Log.written, Log.out]
  · simp [Log.written, Log.out]

theorem heard_eq_take (lines : List (List Char)) :
    heard lines = lines.take (lines.findIdx isTerminator) := by
  unfold heard
  rw [List.takeWhile_eq_take_findIdx_not]
  simp

end Loop

section Run

variable {p : Platform} {fs : FileSystem} {words : List String} {args : Args} {options : Options}

/-- **A run with options** is a session, or a listing if there is a file to read. -/
theorem run_of_resolved (hargs : Args.parse p.dropsMark words = .ok args)
    (hoptions : Options.resolve p.room fs args = .ok options) (input : Input) :
    run p fs input words = match options.input with
      | none => runSession p.takesAnything options input
      | some path => runFile fs options path := by
  unfold run
  rw [hargs]
  cases hinput : options.input with
  | none => simp only [runArgs, hoptions, hinput]
  | some path => simp only [runArgs, hoptions, hinput]

/-- A run with a prompt and no file to read is a session, whatever the output takes. -/
theorem run_of_prompt (hargs : Args.parse p.dropsMark words = .ok args)
    (hoptions : Options.resolve p.room fs args = .ok options) (hinput : options.input = none)
    {prompt : String} (hprompt : options.prompt = .value prompt) (input : Input) :
    run p fs input words =
      ⟨.returned 0, Loop.session (options.settings prompt) input.feed⟩ := by
  rw [run_of_resolved hargs hoptions, hinput]
  simp only [runSession, hprompt]

/-- A run whose prompt is no text ends after the greeting, on a stream that refuses it. -/
theorem run_of_bare (hargs : Args.parse p.dropsMark words = .ok args)
    (hoptions : Options.resolve p.room fs args = .ok options) (hinput : options.input = none)
    (hprompt : options.prompt = .bare) (hrefuses : p.takesAnything = false) (input : Input) :
    run p fs input words = ⟨.failed .prompt, Loop.greeting (options.settings "")⟩ := by
  rw [run_of_resolved hargs hoptions, hinput]
  simp [runSession, hprompt, hrefuses]

end Run

theorem feed_encode (text : List Char) :
    (Input.bytes (Utf8.encode text)).feed = .ofText (unifyBreaks text) := by
  show Feed.ofBytesLossy (Utf8.encode text) = _
  rw [Feed.ofBytesLossy, Utf8.decodeLossy_encode]

theorem listFile_encode {fs : FileSystem} {path : Path} {text : List Char}
    (hfile : fs path = .file (Utf8.encode text)) (format : Format) (strict : Bool) :
    listFile fs (some path) format strict =
      .ok (listSource format strict path.text (unifyBreaks text)) := by
  rw [listFile_eq, readText_encode hfile]
  rfl

/-! ## The lines that are heard -/

/-- What a session on a text with unified line endings hears has just the lines that it hears. -/
theorem splitLines_heard (text : List Char) :
    let lines := feedLines (unifyBreaks text)
    splitLines (lines.take (lines.findIdx isTerminator)).flatten = Loop.heard lines ∧
      unifyBreaks (lines.take (lines.findIdx isTerminator)).flatten =
        (lines.take (lines.findIdx isTerminator)).flatten := by
  intro lines
  have hlines : lines = splitLines (unifyBreaks text) :=
    feedLines_eq_splitLines (cr_not_mem_unifyBreaks text)
  rw [hlines]
  constructor
  · rw [Loop.heard_eq_take, splitLines_take]
  · exact unifyBreaks_take_lines text _

/-! ## Records -/

/-- What does not look at the indices of lines need not have them. -/
theorem flatMap_lines {β : Type} (lines : List (List Char)) (f : List Char → List β) :
    lines.zipIdx.flatMap (fun (line, _) => f line) = lines.flatMap f := by
  have hlines : lines.zipIdx.map Prod.fst = lines := List.zipIdx_map_fst 0 lines
  conv_rhs => rw [← hlines, List.flatMap_map]

/-- A token moved to a given line. -/
def Token.onLine (line : Int) (t : Token) : Token :=
  ⟨t.kind, t.literal, t.position.map (fun p => ⟨line, p.column, p.offset⟩)⟩

/-- A token of a line, taken from its place in a source back to line one, has the record that it has
when the line is scanned by itself. -/
theorem json_onLine_shift {t : Token} {p : Position} (hp : t.position = some p)
    (hline : p.line = 1) (k n : Nat) :
    Record.json 0 ((t.shift k n).onLine 1) = Record.json 0 t := by
  have hplace : ((t.shift k n).onLine 1).position = some ⟨1, p.column, p.offset + n⟩ := by
    simp [Token.onLine, Token.shift, Token.carry, hp, Position.shift]
  unfold Record.json
  rw [hplace, hp, Record.jsonPlace_some, Record.jsonPlace_some, hline]
  rfl

/-- The JSON records of lines, each scanned by itself, are those of the whole moved to line one. -/
theorem json_lines_onLine (source : List Char) :
    (splitLines source).flatMap (fun line => dump .json 0 (scan line)) =
      dump .json 0 ((scan source).map (Token.onLine 1)) := by
  rw [scan_eq_lines source, List.map_flatMap, dump_flatMap, ← flatMap_lines]
  refine flatMap_lines_congr ?_
  intro line rest k hline
  show dump .json 0 (scan line) = dump .json 0 (((scan line).map _).map (Token.onLine 1))
  unfold dump
  rw [List.map_map, List.flatMap_map]
  refine List.flatMap_congr ?_
  intro t ht
  obtain ⟨p, hp, hone⟩ := scan_line_position hline ht
  show Record.json 0 t ++ ['\n'] = Record.json 0 ((t.shift k _).onLine 1) ++ ['\n']
  rw [json_onLine_shift hp hone]

/-! ## Both ways in -/

/-- **A plain session and a listing agree.**  The session reads the bytes of a text; the listing has
a file with the lines before the first one that ends the session, all line endings unified.  As text
both write the same, and in JSON the same records in the same order, except that those of the
session are all on line one.  The session returns without a fault, and complains about nothing. -/
theorem session_agrees_with_listing (p : Platform) (fs : FileSystem) (words : List String)
    (args : Args) (options : Options) (format : Format)
    (hargs : Args.parse p.dropsMark words = .ok args)
    (hoptions : Options.resolve p.room fs args = .ok options)
    (hinput : options.input = none) (hprompt : options.prompt = .value "")
    (hplain : options.settings "" = Loop.plain format) (text said : List Char)
    (hsaid : said = ((feedLines (unifyBreaks text)).take
      ((feedLines (unifyBreaks text)).findIdx isTerminator)).flatten)
    (files : FileSystem) (path : Path) (hfile : files path = .file (Utf8.encode said)) :
    let r := run p fs (.bytes (Utf8.encode text)) words
    ∃ outcome, listFile files (some path) format false = .ok outcome ∧
      r.completion = .returned 0 ∧ Log.written .err r.log = [] ∧
      (format = .text → Log.written .out r.log = Log.written .out outcome.log) ∧
      (format = .json → ∃ ts : List Token, ts = (tokenize said).dropLast ∧
        (∀ t ∈ ts, ∃ p, t.position = some p) ∧
        feedLines (Log.written .out outcome.log) = ts.map (fun t => Record.json 0 t ++ ['\n']) ∧
        feedLines (Log.written .out r.log) =
          ts.map (fun t => Record.json 0 (t.onLine 1) ++ ['\n'])) := by
  intro r
  obtain ⟨hlines, hunified⟩ := splitLines_heard text
  rw [← hsaid] at hlines hunified
  have hrun : r = ⟨.returned 0, Loop.session (Loop.plain format) (.ofText (unifyBreaks text))⟩ := by
    show run p fs (.bytes (Utf8.encode text)) words = _
    rw [run_of_prompt hargs hoptions hinput hprompt, feed_encode, hplain]
  obtain ⟨hout, herr⟩ := Loop.written_session format (unifyBreaks text)
  rw [← hlines] at hout
  have hlisted := listFile_encode hfile format false
  rw [hunified] at hlisted
  refine ⟨_, hlisted, by rw [hrun], by rw [hrun, herr], ?_, ?_⟩
  · rintro rfl
    rw [hrun, hout, listSource_plain, ← flatMap_lines]
    rfl
  · rintro rfl
    refine ⟨_, rfl, ?_, ?_, ?_⟩
    · intro t ht
      rw [tokenize_dropLast] at ht
      exact scan_position ht
    · rw [listSource_plain, dump_lines, tokenize_dropLast, feedLines_dump_json]
    · rw [hrun, hout, json_lines_onLine, feedLines_dump_json, tokenize_dropLast, List.map_map]
      rfl

/-- Of two lines that a session hears before it ends, the second is on line two of the listing and
on line one of the session. -/
theorem session_agrees_until_quit :
    let p : Platform := ⟨100, false, false⟩
    let fs : FileSystem := fun _ => .missing
    let words := ["--prompt=", "--no-banner", "--format", "json"]
    let files : FileSystem := fun _ => .file (Utf8.encode "a\nb\n".toList)
    let path : Path := ⟨.here, ["ab.ni"]⟩
    let r := run p fs (.bytes (Utf8.encode "a\rb\r\nquit\n%".toList)) words
    ∃ outcome, listFile files (some path) .json false = .ok outcome ∧
      r.completion = .returned 0 ∧ Log.written .err r.log = [] ∧
      feedLines (Log.written .out outcome.log) =
        ["\x7b\"type\": \"IDENT\", \"literal\": \"a\", \"line\": 1, \"column\": 1\x7d\n".toList,
         "\x7b\"type\": \"IDENT\", \"literal\": \"b\", \"line\": 2, \"column\": 1\x7d\n".toList] ∧
      feedLines (Log.written .out r.log) =
        ["\x7b\"type\": \"IDENT\", \"literal\": \"a\", \"line\": 1, \"column\": 1\x7d\n".toList,
         "\x7b\"type\": \"IDENT\", \"literal\": \"b\", \"line\": 1, \"column\": 1\x7d\n".toList] := by
  intro p fs words files path r
  have hargs : Args.parse p.dropsMark words =
      .ok ⟨none, none, some (.value ""), some (.value .json), false, true⟩ := by cbv
  have hoptions : Options.resolve p.room fs
      ⟨none, none, some (.value ""), some (.value .json), false, true⟩ =
        .ok ⟨none, .value "", false, .value .json, false⟩ := by cbv
  have hsaid : "a\nb\n".toList =
      ((feedLines (unifyBreaks "a\rb\r\nquit\n%".toList)).take
        ((feedLines (unifyBreaks "a\rb\r\nquit\n%".toList)).findIdx isTerminator)).flatten := by
    decide
  have htokens : (tokenize "a\nb\n".toList).dropLast =
      [⟨.ident, "a", some ⟨1, 1, 0⟩⟩, ⟨.ident, "b", some ⟨2, 1, 2⟩⟩] := by cbv
  obtain ⟨outcome, hlisted, hcode, herr, _, hjson⟩ :=
    session_agrees_with_listing p fs words _ _ .json hargs hoptions rfl rfl rfl
      "a\rb\r\nquit\n%".toList "a\nb\n".toList hsaid files path rfl
  obtain ⟨ts, rfl, _, hlisting, hsession⟩ := hjson rfl
  rw [htokens] at hlisting hsession
  refine ⟨outcome, hlisted, hcode, herr, hlisting.trans ?_, hsession.trans ?_⟩
  · decide +kernel
  · decide +kernel

end Lexline
