import Lexline.Proofs.Arguments
import Lexline.Proofs.StrictListing

/-!
# How runs end

On a command line that gives arguments, a run returns zero, one or two, or fails with a fault that
it does not report.

* `configFile`, `Configures` — the file that configures a run, and its table; without a file the
  table is empty.
* `Misconfigured` — why a run has no options.
* `resolve_eq_error_iff` — **a run has no options exactly if it is misconfigured**.
* `Fails`, `Refused` — when a run fails, and when it ends with an error line.
* `run_returns_or_fails` — **a run fails, returns two, or returns zero or one**, each exactly when
  it should, and one that fails writes nothing but the banner.
-/

namespace Lexline

open Text

/-! ## The configuration of a run -/

/-- The one file that may hold the configuration of a run. -/
def configFile (args : Args) : Path := configPath (namedConfig args) (baseDirectory args)

/-- Whether it is known that there is no file at a path. -/
def Probe.isAbsent : Probe → Bool
  | .file _ => false
  | .nameTooLong => false
  | .directory => true
  | .missing => true
  | .notDirectory => true
  | .embeddedNul => true

/-- `Configures room fs args config`: the table of the configuration file, read in some room, is
`config`.  Without a file it is empty. -/
inductive Configures (room : Nat) (fs : FileSystem) (args : Args) : Fields → Prop where
  | absent (hfile : (fs (configFile args)).isAbsent = true) : Configures room fs args []
  | read {text : List Char} {config : Fields}
      (hfile : fs (configFile args) = .file (Utf8.encode text))
      (htext : Toml.parse (room - 1) text = .ok config) : Configures room fs args config

/-- Whether the prompt that a table asks for can be written in some room. -/
def HasPrompt (room : Nat) (config : Fields) : Prop :=
  ∀ value, nested? config "repl" "prompt" = some value → value.limit? room = none

/-- Why a run has no options: the name of the configuration file is too long, the file is no text,
the text is no configuration, or the format is none.  Reading the text and writing its values can
meet a limit; the format is looked at only if the prompt can be written. -/
inductive Misconfigured (room : Nat) (fs : FileSystem) (args : Args) : ConfigFault → Prop where
  | nameTooLong (hfile : fs (configFile args) = .nameTooLong) :
      Misconfigured room fs args (.unreadable (.nameTooLong (configFile args)))
  | undecodable {bytes : List UInt8} {fault : Utf8.Fault}
      (hfile : fs (configFile args) = .file bytes) (hbytes : Utf8.decode bytes = .error fault) :
      Misconfigured room fs args (.unreadable (.undecodable fault))
  | malformed {text : List Char} {malformation : Toml.Malformation}
      (hfile : fs (configFile args) = .file (Utf8.encode text))
      (htext : Toml.parse (room - 1) text = .error (.malformed malformation)) :
      Misconfigured room fs args (.malformed malformation)
  | reading {text : List Char} {limit : LimitReached}
      (hfile : fs (configFile args) = .file (Utf8.encode text))
      (htext : Toml.parse (room - 1) text = .error (.limit limit)) :
      Misconfigured room fs args (.limit limit)
  | writingPrompt {config : Fields} {value : Datum} {limit : LimitReached}
      (hconfig : Configures room fs args config)
      (hvalue : nested? config "repl" "prompt" = some value)
      (hlimit : value.limit? room = some limit) : Misconfigured room fs args (.limit limit)
  | writingFormat {config : Fields} {value : Datum} {limit : LimitReached}
      (hconfig : Configures room fs args config) (hprompt : HasPrompt room config)
      (hvalue : nested? config "output" "format" = some value) (hnone : formatOf? value = none)
      (hlimit : value.limit? room = some limit) : Misconfigured room fs args (.limit limit)
  | invalidFormat {config : Fields} {value : Datum}
      (hconfig : Configures room fs args config) (hprompt : HasPrompt room config)
      (hvalue : nested? config "output" "format" = some value) (hnone : formatOf? value = none)
      (hlimit : value.limit? room = none) : Misconfigured room fs args (.invalidFormat value)

/-- An empty text is an empty configuration. -/
theorem Toml.parse_nil (room : Nat) : Toml.parse room [] = .ok [] := by
  have hstate (room : Nat) (s : Toml.State) : Toml.statements room s [] = .ok s := by
    rw [Toml.statements]
    rfl
  simp only [Toml.parse, Toml.unifyPairs, hstate, Toml.State.initial]

section Resolve

variable {room : Nat} {fs : FileSystem} {args : Args} {config : Fields} {fault : ConfigFault}

theorem loadConfig_absent {path : Path} (h : (fs path).isAbsent = true) :
    loadConfig room fs path = .ok [] := by
  unfold loadConfig
  cases hprobe : fs path <;> simp_all [Probe.isAbsent]

/-- What a configuration file gives that is a text. -/
theorem loadConfig_encode (room : Nat) {path : Path} {text : List Char}
    (h : fs path = .file (Utf8.encode text)) :
    (∀ config, Toml.parse room text = .ok config → loadConfig room fs path = .ok config) ∧
    (∀ m, Toml.parse room text = .error (.malformed m) →
      loadConfig room fs path = .error (.malformed m)) ∧
    (∀ limit, Toml.parse room text = .error (.limit limit) →
      loadConfig room fs path = .error (.limit limit)) := by
  refine ⟨fun config htext => ?_, fun m htext => ?_, fun limit htext => ?_⟩ <;>
    simp only [loadConfig, h, Utf8.decode_encode, htext]

theorem Configures.loadConfig (h : Configures room fs args config) :
    loadConfig (room - 1) fs (configFile args) = .ok config := by
  cases h with
  | absent hfile => exact loadConfig_absent hfile
  | read hfile htext => exact (loadConfig_encode _ hfile).1 _ htext

/-- **A table configures the run, or it is misconfigured.** -/
theorem configures_or_misconfigured (room : Nat) (fs : FileSystem) (args : Args) :
    (∃ config, Configures room fs args config) ∨ ∃ fault, Misconfigured room fs args fault := by
  have habsent (h : (fs (configFile args)).isAbsent = true) :
      ∃ config, Configures room fs args config := ⟨[], .absent h⟩
  cases hprobe : fs (configFile args) with
  | directory => exact Or.inl (habsent (by rw [hprobe]; rfl))
  | missing => exact Or.inl (habsent (by rw [hprobe]; rfl))
  | notDirectory => exact Or.inl (habsent (by rw [hprobe]; rfl))
  | embeddedNul => exact Or.inl (habsent (by rw [hprobe]; rfl))
  | nameTooLong => exact Or.inr ⟨_, .nameTooLong hprobe⟩
  | file bytes =>
    cases hdecode : Utf8.decode bytes with
    | error fault => exact Or.inr ⟨_, .undecodable hprobe hdecode⟩
    | ok text =>
      obtain rfl := Utf8.decode_eq_ok_iff.1 hdecode
      cases htext : Toml.parse (room - 1) text with
      | ok config => exact Or.inl ⟨config, .read hprobe htext⟩
      | error fault =>
        cases fault with
        | malformed malformation => exact Or.inr ⟨_, .malformed hprobe htext⟩
        | limit limit => exact Or.inr ⟨_, .reading hprobe htext⟩

theorem configPrompt_limit {value : Datum} {limit : LimitReached}
    (hvalue : nested? config "repl" "prompt" = some value)
    (hlimit : value.limit? room = some limit) :
    configPrompt room config = .error (.limit limit) := by
  simp only [configPrompt, hvalue, hlimit]

theorem HasPrompt.configPrompt (h : HasPrompt room config) :
    configPrompt room config = .ok ((nested? config "repl" "prompt").map Datum.display) := by
  unfold Lexline.configPrompt
  cases hvalue : nested? config "repl" "prompt" with
  | none => rfl
  | some value => simp only [h value hvalue, Option.map_some]

theorem configFormat_limit {value : Datum} {limit : LimitReached}
    (hvalue : nested? config "output" "format" = some value) (hnone : formatOf? value = none)
    (hlimit : value.limit? room = some limit) :
    configFormat room config = .error (.limit limit) := by
  simp only [configFormat, hvalue, hnone, hlimit]

theorem configFormat_invalid {value : Datum}
    (hvalue : nested? config "output" "format" = some value) (hnone : formatOf? value = none)
    (hlimit : value.limit? room = none) :
    configFormat room config = .error (.invalidFormat value) := by
  simp only [configFormat, hvalue, hnone, hlimit]

/-- A format that a table asks for in vain. -/
theorem configFormat_error (h : configFormat room config = .error fault) :
    ∃ value, nested? config "output" "format" = some value ∧ formatOf? value = none ∧
      (value.limit? room = none ∧ fault = .invalidFormat value ∨
        ∃ limit, value.limit? room = some limit ∧ fault = .limit limit) := by
  unfold configFormat at h
  cases hvalue : nested? config "output" "format" with
  | none => simp [hvalue] at h
  | some value =>
    cases hof : formatOf? value with
    | some format => simp [hvalue, hof] at h
    | none =>
      refine ⟨value, rfl, hof, ?_⟩
      cases hlimit : value.limit? room with
      | none => exact Or.inl ⟨rfl, by simpa [hvalue, hof, hlimit] using h.symm⟩
      | some limit => exact Or.inr ⟨limit, rfl, by simpa [hvalue, hof, hlimit] using h.symm⟩

/-- A table that configures a run gives it options, unless the run is misconfigured. -/
theorem Configures.misconfigured (h : Configures room fs args config)
    (hmerge : Options.merge room args config = .error fault) :
    Misconfigured room fs args fault := by
  unfold Options.merge at hmerge
  by_cases hprompt : HasPrompt room config
  · rw [hprompt.configPrompt] at hmerge
    cases hformat : configFormat room config with
    | ok format => simp [hformat] at hmerge
    | error cause =>
      obtain rfl : cause = fault := by simpa [hformat] using hmerge
      obtain ⟨value, hvalue, hnone, ⟨hlimit, rfl⟩ | ⟨limit, hlimit, rfl⟩⟩ :=
        configFormat_error hformat
      · exact .invalidFormat h hprompt hvalue hnone hlimit
      · exact .writingFormat h hprompt hvalue hnone hlimit
  · obtain ⟨value, hvalue, hsome⟩ : ∃ value, nested? config "repl" "prompt" = some value ∧
        value.limit? room ≠ none := by simpa [HasPrompt] using hprompt
    obtain ⟨limit, hlimit⟩ := Option.ne_none_iff_exists'.1 hsome
    rw [configPrompt_limit hvalue hlimit] at hmerge
    obtain rfl := Except.error.inj hmerge
    exact .writingPrompt h hvalue hlimit

/-- The options of a run come from the table of its configuration file, if it has one. -/
theorem resolve_eq (room : Nat) (fs : FileSystem) (args : Args) :
    Options.resolve room fs args =
      (loadConfig (room - 1) fs (configFile args)).bind (Options.merge room args) := by
  unfold Options.resolve configFile
  cases loadConfig (room - 1) fs (configPath (namedConfig args) (baseDirectory args)) <;> rfl

theorem Configures.resolve (h : Configures room fs args config) :
    Options.resolve room fs args = Options.merge room args config := by
  rw [resolve_eq, h.loadConfig]
  rfl

theorem Misconfigured.resolve (h : Misconfigured room fs args fault) :
    Options.resolve room fs args = .error fault := by
  cases h with
  | nameTooLong hfile =>
    rw [resolve_eq]
    simp only [loadConfig, hfile, Except.bind]
  | undecodable hfile hbytes =>
    rw [resolve_eq]
    simp only [loadConfig, hfile, hbytes, Except.bind]
  | malformed hfile htext =>
    rw [resolve_eq, (loadConfig_encode _ hfile).2.1 _ htext]
    rfl
  | reading hfile htext =>
    rw [resolve_eq, (loadConfig_encode _ hfile).2.2 _ htext]
    rfl
  | writingPrompt hconfig hvalue hlimit =>
    rw [hconfig.resolve]
    simp only [Options.merge, configPrompt_limit hvalue hlimit]
  | writingFormat hconfig hprompt hvalue hnone hlimit =>
    rw [hconfig.resolve]
    simp only [Options.merge, hprompt.configPrompt, configFormat_limit hvalue hnone hlimit]
  | invalidFormat hconfig hprompt hvalue hnone hlimit =>
    rw [hconfig.resolve]
    simp only [Options.merge, hprompt.configPrompt, configFormat_invalid hvalue hnone hlimit]

/-- **A run has no options exactly if it is misconfigured.** -/
theorem resolve_eq_error_iff :
    Options.resolve room fs args = .error fault ↔ Misconfigured room fs args fault := by
  refine ⟨fun h => ?_, Misconfigured.resolve⟩
  rcases configures_or_misconfigured room fs args with ⟨config, hconfig⟩ | ⟨cause, hcause⟩
  · rw [hconfig.resolve] at h
    exact hconfig.misconfigured h
  · obtain rfl := Except.error.inj (hcause.resolve.symm.trans h)
    exact hcause

/-- The file to read comes from the command line alone. -/
theorem input_of_resolve {options : Options} (h : Options.resolve room fs args = .ok options) :
    options.input = inputPath args := by
  unfold Options.resolve at h
  split at h
  · cases h
  · unfold Options.merge at h
    split at h
    · cases h
    · split at h
      · cases h
      · obtain rfl := Except.ok.inj h
        rfl

end Resolve

/-! ## Whole runs -/

/-- When a run fails: the name of its configuration file is too long, the file is no text, its
values meet a limit, no file can have the path that it is to read, or it has no file to read and no
prompt, and its output refuses what is no text. -/
inductive Fails (p : Platform) (fs : FileSystem) (args : Args) : Prop where
  | nameTooLong (hfile : fs (configFile args) = .nameTooLong)
  | undecodable {bytes : List UInt8} (hfile : fs (configFile args) = .file bytes)
      (hbytes : ∀ text, bytes ≠ Utf8.encode text)
  | limit {limit : LimitReached} (h : Misconfigured p.room fs args (.limit limit))
  | input {path : Path} (hsettled : ∀ fault, ¬ Misconfigured p.room fs args fault)
      (hinput : inputPath args = some path) (hnul : fs path = .embeddedNul)
  | prompt (hsettled : ∀ fault, ¬ Misconfigured p.room fs args fault)
      (hinput : inputPath args = none) (hprompt : args.prompt = some .bare)
      (hrefuses : p.takesAnything = false)

/-- When a run ends with an error line: its configuration file is no configuration or asks for a
format that is none, or what it is to read is no file that is a text. -/
inductive Refused (p : Platform) (fs : FileSystem) (args : Args) : Prop where
  | malformed {text : List Char} {malformation : Toml.Malformation}
      (hfile : fs (configFile args) = .file (Utf8.encode text))
      (htext : Toml.parse (p.room - 1) text = .error (.malformed malformation))
  | invalidFormat {value : Datum} (h : Misconfigured p.room fs args (.invalidFormat value))
  | input {path : Path} (hsettled : ∀ fault, ¬ Misconfigured p.room fs args fault)
      (hinput : inputPath args = some path) (hname : fs path ≠ .embeddedNul)
      (htext : ∀ text, fs path ≠ .file (Utf8.encode text))

section Run

variable {p : Platform} {fs : FileSystem} {words : List String} {args : Args}
  {fault : ConfigFault}

theorem decode_error_of_ne {bytes : List UInt8} (h : ∀ text, bytes ≠ Utf8.encode text) :
    ∃ fault, Utf8.decode bytes = .error fault := by
  cases hdecode : Utf8.decode bytes with
  | ok text => exact absurd (Utf8.decode_eq_ok_iff.1 hdecode) (h text)
  | error fault => exact ⟨fault, rfl⟩

/-- Whatever leaves a run without options makes it fail or is reported. -/
theorem Misconfigured.fails_or_refused (h : Misconfigured p.room fs args fault) :
    Fails p fs args ∨ Refused p fs args := by
  cases h with
  | nameTooLong hfile => exact Or.inl (.nameTooLong hfile)
  | undecodable hfile hbytes =>
    refine Or.inl (.undecodable hfile ?_)
    rintro text rfl
    rw [Utf8.decode_encode] at hbytes
    cases hbytes
  | malformed hfile htext => exact Or.inr (.malformed hfile htext)
  | reading hfile htext => exact Or.inl (.limit (.reading hfile htext))
  | writingPrompt hconfig hvalue hlimit =>
    exact Or.inl (.limit (.writingPrompt hconfig hvalue hlimit))
  | writingFormat hconfig hprompt hvalue hnone hlimit =>
    exact Or.inl (.limit (.writingFormat hconfig hprompt hvalue hnone hlimit))
  | invalidFormat hconfig hprompt hvalue hnone hlimit =>
    exact Or.inr (.invalidFormat (.invalidFormat hconfig hprompt hvalue hnone hlimit))

theorem run_of_misconfigured (hargs : Args.parse p.dropsMark words = .ok args)
    (h : Misconfigured p.room fs args fault) (input : Input) :
    run p fs input words =
      if fault.isReported then .error fault.message else ⟨.failed (.config fault), []⟩ := by
  simp only [run, hargs, runArgs, h.resolve]

theorem exists_resolve {room : Nat} (h : ∀ fault, ¬ Misconfigured room fs args fault) :
    ∃ options, Options.resolve room fs args = .ok options := by
  cases hresolve : Options.resolve room fs args with
  | ok options => exact ⟨options, rfl⟩
  | error fault => exact absurd (resolve_eq_error_iff.1 hresolve) (h fault)

/-- A run with options and a file to read lists the file. -/
theorem run_of_settled {path : Path} (hargs : Args.parse p.dropsMark words = .ok args)
    (h : ∀ fault, ¬ Misconfigured p.room fs args fault)
    (hinput : inputPath args = some path) (input : Input) :
    ∃ options, run p fs input words = runFile fs options path := by
  obtain ⟨options, hresolve⟩ := exists_resolve h
  refine ⟨options, ?_⟩
  rw [run_of_resolved hargs hresolve, input_of_resolve hresolve, hinput]

theorem runFile_nul {path : Path} (h : fs path = .embeddedNul) (options : Options) :
    runFile fs options path = ⟨.failed (.file .embeddedNul), []⟩ := by
  have hread : readText fs path = .error .embeddedNul := by simp only [readText, readBytes, h]
  rw [runFile, listFile_eq, hread]
  rfl

theorem readText_error {path : Path} (hname : fs path ≠ .embeddedNul)
    (htext : ∀ text, fs path ≠ .file (Utf8.encode text)) :
    ∃ fault, readText fs path = .error fault ∧ fault ≠ .embeddedNul := by
  cases hprobe : fs path with
  | embeddedNul => exact absurd hprobe hname
  | directory => exact ⟨.directory path, by simp only [readText, readBytes, hprobe], by simp⟩
  | missing => exact ⟨.missing path, by simp only [readText, readBytes, hprobe], by simp⟩
  | notDirectory => exact ⟨.notDirectory path, by simp only [readText, readBytes, hprobe], by simp⟩
  | nameTooLong => exact ⟨.nameTooLong path, by simp only [readText, readBytes, hprobe], by simp⟩
  | file bytes =>
    obtain ⟨fault, hdecode⟩ := decode_error_of_ne (fun text heq => htext text (heq ▸ hprobe))
    exact ⟨.undecodable fault, by simp only [readText, readBytes, hprobe, hdecode], by simp⟩

/-- What is no file that is a text is reported. -/
theorem runFile_refused {path : Path} (hname : fs path ≠ .embeddedNul)
    (htext : ∀ text, fs path ≠ .file (Utf8.encode text)) (options : Options) :
    ∃ message,
      runFile fs options path = .error ("cannot read " ++ path.text ++ ": " ++ message) := by
  obtain ⟨fault, hread, hne⟩ := readText_error hname htext
  refine ⟨fault.message, ?_⟩
  rw [runFile, listFile_eq, hread]
  cases fault with
  | embeddedNul => exact absurd rfl hne
  | _ => rfl

theorem listSource_code_le (format : Format) (strict : Bool) (name : String) (source : List Char) :
    (listSource format strict name source).code ≤ 1 := by
  cases strict with
  | false => simp [listSource, listLines_plain]
  | true =>
    rw [listSource_strict_code]
    split <;> omega

/-- A greeting is the banner or nothing. -/
theorem Loop.greeting_eq (s : Loop.Settings) :
    Loop.greeting s = [] ∨ Loop.greeting s = [Log.out Loop.banner.toList] := by
  unfold Loop.greeting
  split
  · exact Or.inr rfl
  · exact Or.inl rfl

/-- **A run that fails** writes nothing, or the banner if all that it lacks is a prompt. -/
theorem Fails.run (h : Fails p fs args) (hargs : Args.parse p.dropsMark words = .ok args)
    (input : Input) :
    ∃ fault log, run p fs input words = ⟨.failed fault, log⟩ ∧
      (log = [] ∨ fault = .prompt ∧ p.dropsMark = true ∧ log = [Log.out Loop.banner.toList]) := by
  cases h with
  | nameTooLong hfile =>
    exact ⟨_, [], run_of_misconfigured hargs (.nameTooLong hfile) input, Or.inl rfl⟩
  | undecodable hfile hbytes =>
    obtain ⟨fault, hdecode⟩ := decode_error_of_ne hbytes
    exact ⟨_, [], run_of_misconfigured hargs (.undecodable hfile hdecode) input, Or.inl rfl⟩
  | limit h => exact ⟨_, [], run_of_misconfigured hargs h input, Or.inl rfl⟩
  | input hsettled hinput hnul =>
    obtain ⟨options, hrun⟩ := run_of_settled hargs hsettled hinput input
    exact ⟨_, [], hrun.trans (runFile_nul hnul options), Or.inl rfl⟩
  | prompt hsettled hinput hprompt hrefuses =>
    obtain ⟨options, hresolve⟩ := exists_resolve hsettled
    have hnone : options.input = none := (input_of_resolve hresolve).trans hinput
    have hbare : options.prompt = .bare := (prompt_of_resolve hresolve).2 hprompt
    have hdrops : p.dropsMark = true := Args.dropsMark_of_bare hargs hprompt
    refine ⟨_, _, run_of_bare hargs hresolve hnone hbare hrefuses input, ?_⟩
    exact (Loop.greeting_eq _).imp_right fun hlog => ⟨rfl, hdrops, hlog⟩

theorem Refused.run (h : Refused p fs args) (hargs : Args.parse p.dropsMark words = .ok args)
    (input : Input) : ∃ message, run p fs input words = .error message := by
  cases h with
  | malformed hfile htext => exact ⟨_, run_of_misconfigured hargs (.malformed hfile htext) input⟩
  | invalidFormat h => exact ⟨_, run_of_misconfigured hargs h input⟩
  | input hsettled hinput hname htext =>
    obtain ⟨options, hrun⟩ := run_of_settled hargs hsettled hinput input
    obtain ⟨message, hfile⟩ := runFile_refused hname htext options
    exact ⟨_, hrun.trans hfile⟩

/-- A session returns zero, unless it has no prompt and its output refuses that. -/
theorem runSession_served {takesAnything : Bool} {options : Options}
    (h : options.prompt = .bare → takesAnything = true) (input : Input) :
    ∃ log, runSession takesAnything options input = ⟨.returned 0, log⟩ := by
  unfold runSession
  cases hprompt : options.prompt with
  | value prompt => exact ⟨_, rfl⟩
  | bare => exact ⟨_, by rw [h hprompt]; rfl⟩

/-- **A run that neither fails nor is refused** returns zero or one. -/
theorem run_of_served (hargs : Args.parse p.dropsMark words = .ok args)
    (hfails : ¬ Fails p fs args) (hrefused : ¬ Refused p fs args) (input : Input) :
    ∃ code log, code ≤ 1 ∧ run p fs input words = ⟨.returned code, log⟩ := by
  have hsettled (fault : ConfigFault) : ¬ Misconfigured p.room fs args fault :=
    fun h => h.fails_or_refused.elim hfails hrefused
  cases hinput : inputPath args with
  | none =>
    obtain ⟨options, hresolve⟩ := exists_resolve hsettled
    have hrun := run_of_resolved hargs hresolve input
    rw [input_of_resolve hresolve, hinput] at hrun
    have htakes (hbare : options.prompt = .bare) : p.takesAnything = true := by
      by_contra hrefuses
      rw [Bool.not_eq_true] at hrefuses
      have hprompt := (prompt_of_resolve hresolve).1 hbare
      exact hfails (.prompt hsettled hinput hprompt hrefuses)
    obtain ⟨log, hsession⟩ := runSession_served htakes input
    exact ⟨0, log, Nat.zero_le 1, hrun.trans hsession⟩
  | some path =>
    obtain ⟨options, hrun⟩ := run_of_settled hargs hsettled hinput input
    obtain ⟨text, hfile⟩ : ∃ text, fs path = .file (Utf8.encode text) := by
      by_contra hnone
      have hname : fs path ≠ .embeddedNul := fun hnul => hfails (.input hsettled hinput hnul)
      exact hrefused (.input hsettled hinput hname (not_exists.1 hnone))
    have hlisted := listFile_encode hfile options.format.format options.strict
    exact ⟨_, _, listSource_code_le _ _ _ _, hrun.trans (runFile_of_listed hlisted)⟩

theorem runFile_congr {other : FileSystem} {path : Path} (h : fs path = other path)
    (options : Options) : runFile fs options path = runFile other options path := by
  simp only [runFile, listFile, readText, readBytes, h]

/-- A path without a file is as good as an empty configuration file. -/
theorem run_of_absent {empty : FileSystem} (hargs : Args.parse p.dropsMark words = .ok args)
    (habsent : (fs (configFile args)).isAbsent = true) (hempty : empty (configFile args) = .file [])
    (hsame : ∀ path, inputPath args = some path → empty path = fs path) (input : Input) :
    run p fs input words = run p empty input words := by
  have hnil : empty (configFile args) = .file (Utf8.encode []) := hempty
  have hconfig : Configures p.room empty args [] := .read hnil (Toml.parse_nil _)
  have hresolve : Options.resolve p.room empty args = Options.resolve p.room fs args :=
    hconfig.resolve.trans (Configures.absent habsent).resolve.symm
  cases hoptions : Options.resolve p.room fs args with
  | error fault => simp only [run, hargs, runArgs, hresolve, hoptions]
  | ok options =>
    rw [run_of_resolved hargs hoptions, run_of_resolved hargs (hresolve.trans hoptions),
      input_of_resolve hoptions]
    cases hinput : inputPath args with
    | none => rfl
    | some path => exact runFile_congr (hsame path hinput).symm options

end Run

/-- **Runs return, or fail.**  On a command line that gives arguments a run fails exactly if the
name of its configuration file is too long, the file is no text, its values meet a limit, no file can
have the path that it is to read, or it has no file to read and no prompt, and its output refuses
what is no text.  It then writes nothing; only where it has no prompt, which takes a parser that
drops the mark, it may have written the banner.  It returns two exactly if its configuration file is
no configuration or asks for a format that is none, or what it is to read is no file that is a text;
it then writes one error line, and nothing on standard output.  Otherwise it returns zero or one.  A
path without a file is as good as an empty configuration file. -/
theorem run_returns_or_fails (p : Platform) (fs : FileSystem) (input : Input)
    (words : List String) (args : Args) (hargs : Args.parse p.dropsMark words = .ok args) :
    let r := run p fs input words
    ((∃ fault, r.completion = .failed fault) ↔ Fails p fs args) ∧
    (r.completion = .returned 2 ↔ Refused p fs args) ∧
    (¬ Fails p fs args → ∃ code ≤ 2, r.completion = .returned code) ∧
    (Fails p fs args → r.log = [] ∨ r.completion = .failed .prompt ∧ p.dropsMark = true ∧
      r.log = [Log.out Loop.banner.toList]) ∧
    (Refused p fs args → ∃ message : String,
      r.log = [Log.errLine ("error: ".toList ++ message.toList)]) ∧
    ((fs (configFile args)).isAbsent = true → ∀ empty : FileSystem,
      empty (configFile args) = .file [] →
      (∀ path, inputPath args = some path → empty path = fs path) →
      r = run p empty input words) := by
  intro r
  have hfails (h : Fails p fs args) : ∃ fault log, r = ⟨.failed fault, log⟩ ∧
      (log = [] ∨ fault = .prompt ∧ p.dropsMark = true ∧ log = [Log.out Loop.banner.toList]) :=
    h.run hargs input
  have hrefused (h : Refused p fs args) : ∃ message, r = .error message := h.run hargs input
  have hserved (h : ¬ Fails p fs args) (h' : ¬ Refused p fs args) :
      ∃ code log, code ≤ 1 ∧ r = ⟨.returned code, log⟩ := run_of_served hargs h h' input
  -- the three kinds of run end apart, so what a run comes to tells its kind
  refine ⟨⟨?_, ?_⟩, ⟨?_, ?_⟩, ?_, ?_, ?_, ?_⟩
  · rintro ⟨fault, hfault⟩
    by_contra hnot
    by_cases h : Refused p fs args
    · obtain ⟨message, hr⟩ := hrefused h
      simp [hr, Run.error] at hfault
    · obtain ⟨code, log, _, hr⟩ := hserved hnot h
      simp [hr] at hfault
  · intro h
    obtain ⟨fault, _, hr, _⟩ := hfails h
    exact ⟨fault, by rw [hr]⟩
  · intro htwo
    by_contra hnot
    by_cases h : Fails p fs args
    · obtain ⟨fault, _, hr, _⟩ := hfails h
      simp [hr] at htwo
    · obtain ⟨code, log, hcode, hr⟩ := hserved h hnot
      simp [hr] at htwo
      omega
  · intro h
    obtain ⟨message, hr⟩ := hrefused h
    rw [hr]
    rfl
  · intro hnot
    by_cases h : Refused p fs args
    · obtain ⟨message, hr⟩ := hrefused h
      exact ⟨2, Nat.le_refl 2, by rw [hr]; rfl⟩
    · obtain ⟨code, log, hcode, hr⟩ := hserved hnot h
      exact ⟨code, by omega, by rw [hr]⟩
  · intro h
    obtain ⟨fault, log, hr, hlog⟩ := hfails h
    rw [hr]
    refine hlog.imp_right ?_
    rintro ⟨rfl, hdrops, rfl⟩
    exact ⟨rfl, hdrops, rfl⟩
  · intro h
    obtain ⟨message, hr⟩ := hrefused h
    exact ⟨message, by rw [hr]; rfl⟩
  · intro habsent empty hempty hsame
    exact run_of_absent hargs habsent hempty hsame input

/-- A directory in the place of the configuration file counts for nothing, and a file that is not
there is reported. -/
theorem run_reports_missing_file :
    let p : Platform := ⟨100, false, false⟩
    let fs : FileSystem := fun path => if path = ⟨.here, ["d"]⟩ then .directory else .missing
    let r := run p fs (.text []) ["--config", "d", "ab.ni"]
    Refused p fs ⟨some "ab.ni", some (.value "d"), none, none, false, false⟩ ∧
      r.completion = .returned 2 ∧
      ∃ message : String, r.log = [Log.errLine ("error: ".toList ++ message.toList)] := by
  intro p fs r
  have hargs : Args.parse p.dropsMark ["--config", "d", "ab.ni"] =
      .ok ⟨some "ab.ni", some (.value "d"), none, none, false, false⟩ := by cbv
  have hoptions : Options.resolve p.room fs
      ⟨some "ab.ni", some (.value "d"), none, none, false, false⟩ =
        .ok ⟨some ⟨.here, ["ab.ni"]⟩, .value ">> ", true, .value .text, false⟩ := by cbv
  have hmissing : fs ⟨.here, ["ab.ni"]⟩ = .missing := rfl
  have hrefused : Refused p fs ⟨some "ab.ni", some (.value "d"), none, none, false, false⟩ := by
    refine .input ?_ (input_of_resolve hoptions).symm (by simp [hmissing]) (by simp [hmissing])
    intro fault hfault
    cases hoptions.symm.trans hfault.resolve
  obtain ⟨_, htwo, _, _, hlog, _⟩ := run_returns_or_fails p fs (.text []) _ _ hargs
  exact ⟨hrefused, htwo.2 hrefused, hlog hrefused⟩

/-- A run without arguments in a directory whose configuration file is no text returns nothing. -/
theorem run_fails_on_undecodable_config :
    let p : Platform := ⟨100, false, false⟩
    let fs : FileSystem :=
      fun path => if path = ⟨.here, [configName]⟩ then .file [0xff] else .missing
    let r := run p fs (.text []) []
    (∃ args, Args.parse p.dropsMark [] = .ok args) ∧ (¬ ∃ code, r.completion = .returned code) ∧
      r = ⟨.failed (.config (.unreadable (.undecodable ⟨0, [0xff], .startByte⟩))), []⟩ := by
  intro p fs r
  have hargs : Args.parse p.dropsMark [] = .ok .none := rfl
  have hfile : fs (configFile .none) = .file [0xff] := rfl
  have hbytes : Utf8.decode [0xff] = .error ⟨0, [0xff], .startByte⟩ := by
    simp [Utf8.decode, Utf8.pieces, Utf8.first, Utf8.lead?, Utf8.assemble]
  have hrun : r = ⟨.failed (.config (.unreadable (.undecodable ⟨0, [0xff], .startByte⟩))), []⟩ :=
    run_of_misconfigured hargs (.undecodable hfile hbytes) (.text [])
  refine ⟨⟨_, hargs⟩, ?_, hrun⟩
  rintro ⟨code, hcode⟩
  rw [hrun] at hcode
  cases hcode

end Lexline
