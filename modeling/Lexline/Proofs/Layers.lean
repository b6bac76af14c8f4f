import Lexline.Proofs.Endings

/-!
# The layers of the options

Every option is taken from the highest layer that has a usable value for it: the command line, the
configuration file, the default.

* `Holds`, `BadFormat` — a value in a table of a configuration, and one that is no format.
* `Layered` — what the options are, option by option; `Layered.unique`: they are determined.
* `Settles`, `merge_eq_iff` — what arguments and a configuration come to: options, or the fault of
  one value.
* `SameLayers` — two runs that agree on the command line and on four keys of the configuration.
* `Selects`, `configFile_eq_iff` — the one file that may hold the configuration.
* `options_are_layered` — **the options of a run**, what keeps it from having any, and all that they
  depend on.
-/

namespace Lexline

open Text

/-! ## Values of a configuration -/

/-- `Holds config outer inner value`: the configuration has a table `outer`, and this has `value`
under the name `inner`. -/
def Holds (config : Fields) (outer inner : String) (value : Datum) : Prop :=
  ∃ fields, config.lookup outer = some (.table fields) ∧ fields.lookup inner = some value

/-- A value in the place of the format that names none. -/
def BadFormat (config : Fields) (value : Datum) : Prop :=
  Holds config "output" "format" value ∧ ∀ f : Format, value ≠ .text f.name

section Values

variable {config : Fields} {outer inner : String} {value : Datum}

theorem nested?_eq_some_iff :
    nested? config outer inner = some value ↔ Holds config outer inner value := by
  unfold nested? Holds
  split
  · rename_i fields hfields
    simp [hfields]
  · rename_i hnone
    refine iff_of_false (by simp) ?_
    rintro ⟨fields, hfields, _⟩
    exact hnone fields hfields

theorem nested?_eq_none_iff :
    nested? config outer inner = none ↔ ∀ value, ¬ Holds config outer inner value := by
  rw [Option.eq_none_iff_forall_ne_some]
  exact forall_congr' (fun value => not_congr nested?_eq_some_iff)

/-- A truth value is looked up as it stands; a value of any other kind counts for none. -/
theorem boolean?_eq_some_iff {b : Bool} :
    boolean? config outer inner = some b ↔ Holds config outer inner (.boolean b) := by
  rw [← nested?_eq_some_iff]
  unfold boolean?
  split
  · rename_i b' hb'
    simp [hb']
  · rename_i hnone
    exact iff_of_false (by simp) (hnone b)

theorem formatOf?_eq_some_iff {f : Format} : formatOf? value = some f ↔ value = .text f.name := by
  constructor
  · intro h
    unfold formatOf? at h
    split at h
    · rename_i name
      have hname := List.find?_some h
      rw [← beq_iff_eq.1 hname]
    · cases h
  · rintro rfl
    cases f <;> rfl

theorem formatOf?_eq_none_iff :
    formatOf? value = none ↔ ∀ f : Format, value ≠ .text f.name := by
  rw [Option.eq_none_iff_forall_ne_some]
  exact forall_congr' (fun f => not_congr formatOf?_eq_some_iff)

theorem hasPrompt_iff {room : Nat} :
    HasPrompt room config ↔ ∀ value, Holds config "repl" "prompt" value → value.limit? room = none :=
  forall_congr' (fun _ => imp_congr_left nested?_eq_some_iff)

theorem badFormat_iff : BadFormat config value ↔
    nested? config "output" "format" = some value ∧ formatOf? value = none :=
  and_congr nested?_eq_some_iff.symm formatOf?_eq_none_iff.symm

end Values

/-! ## Options, layer by layer -/

/-- `Layered args config options`: each option is taken from the highest layer that has a usable
value for it. -/
structure Layered (args : Args) (config : Fields) (options : Options) : Prop where
  input : options.input = inputPath args
  prompt_given : ∀ prompt, args.prompt = some prompt → options.prompt = prompt
  prompt_config : args.prompt = none → ∀ value, Holds config "repl" "prompt" value →
    options.prompt = .value value.display
  prompt_default : args.prompt = none → (∀ value, ¬ Holds config "repl" "prompt" value) →
    options.prompt = .value ">> "
  format_given : ∀ format, args.format = some format → options.format = format
  format_config : args.format = none → ∀ f : Format,
    Holds config "output" "format" (.text f.name) → options.format = .value f
  format_default : args.format = none → (∀ value, ¬ Holds config "output" "format" value) →
    options.format = .value .text
  strict_iff : options.strict = true ↔
    args.strict = true ∨ Holds config "output" "strict" (.boolean true)
  banner_iff : options.banner = true ↔
    args.noBanner = false ∧ ¬ Holds config "repl" "banner" (.boolean false)

/-- `SameLayers args config args' config'`: the command lines agree, except in the name of the
configuration file, and so do the configurations on four keys. -/
structure SameLayers (args : Args) (config : Fields) (args' : Args) (config' : Fields) : Prop where
  input : inputPath args' = inputPath args
  prompt_given : args'.prompt = args.prompt
  format_given : args'.format = args.format
  strict_given : args'.strict = args.strict
  banner_given : args'.noBanner = args.noBanner
  prompt : ∀ value, Holds config' "repl" "prompt" value ↔ Holds config "repl" "prompt" value
  format : ∀ value, Holds config' "output" "format" value ↔ Holds config "output" "format" value
  strict : Holds config' "output" "strict" (.boolean true) ↔
    Holds config "output" "strict" (.boolean true)
  banner : Holds config' "repl" "banner" (.boolean false) ↔
    Holds config "repl" "banner" (.boolean false)

section Merge

variable {room : Nat} {args args' : Args} {config config' : Fields} {options : Options}
  {fault : ConfigFault}

/-- **The layers determine the options**, unless the format is a bad one. -/
theorem Layered.unique {other : Options} (h : Layered args config options)
    (h' : Layered args config other) (hformat : ∀ value, ¬ BadFormat config value) :
    options = other := by
  have hprompt : options.prompt = other.prompt := by
    cases hgiven : args.prompt with
    | some prompt => rw [h.prompt_given _ hgiven, h'.prompt_given _ hgiven]
    | none =>
      by_cases hsome : ∃ value, Holds config "repl" "prompt" value
      · obtain ⟨value, hvalue⟩ := hsome
        rw [h.prompt_config hgiven _ hvalue, h'.prompt_config hgiven _ hvalue]
      · have hnone := not_exists.1 hsome
        rw [h.prompt_default hgiven hnone, h'.prompt_default hgiven hnone]
  have hform : options.format = other.format := by
    cases hgiven : args.format with
    | some format => rw [h.format_given _ hgiven, h'.format_given _ hgiven]
    | none =>
      by_cases hsome : ∃ value, Holds config "output" "format" value
      · obtain ⟨value, hvalue⟩ := hsome
        obtain ⟨f, rfl⟩ : ∃ f : Format, value = .text f.name := by
          by_contra hbad
          exact hformat value ⟨hvalue, not_exists.1 hbad⟩
        rw [h.format_config hgiven _ hvalue, h'.format_config hgiven _ hvalue]
      · have hnone := not_exists.1 hsome
        rw [h.format_default hgiven hnone, h'.format_default hgiven hnone]
  have hstrict : options.strict = other.strict :=
    Bool.eq_iff_iff.2 (h.strict_iff.trans h'.strict_iff.symm)
  have hbanner : options.banner = other.banner :=
    Bool.eq_iff_iff.2 (h.banner_iff.trans h'.banner_iff.symm)
  have hinput : options.input = other.input := h.input.trans h'.input.symm
  cases options
  cases other
  rw [Options.mk.injEq]
  exact ⟨hinput, hprompt, hbanner, hform, hstrict⟩

/-- The options that arguments and a configuration give, as far as its values can be used. -/
def Options.ofLayers (args : Args) (config : Fields) : Options where
  input := inputPath args
  prompt := args.prompt.getD
    (.value (((nested? config "repl" "prompt").map Datum.display).getD Loop.defaultPrompt))
  banner := !args.noBanner && (boolean? config "repl" "banner").getD true
  format := args.format.getD
    (.value (((nested? config "output" "format").bind formatOf?).getD .text))
  strict := args.strict || (boolean? config "output" "strict").getD false

theorem layered_ofLayers (args : Args) (config : Fields) :
    Layered args config (Options.ofLayers args config) where
  input := rfl
  prompt_given prompt h := by simp [Options.ofLayers, h]
  prompt_config h value hvalue := by
    simp [Options.ofLayers, h, nested?_eq_some_iff.2 hvalue]
  prompt_default h hnone := by
    simp [Options.ofLayers, h, nested?_eq_none_iff.2 hnone, Loop.defaultPrompt]
  format_given format h := by simp [Options.ofLayers, h]
  format_config h f hvalue := by
    simp [Options.ofLayers, h, nested?_eq_some_iff.2 hvalue, formatOf?_eq_some_iff.2 rfl]
  format_default h hnone := by simp [Options.ofLayers, h, nested?_eq_none_iff.2 hnone]
  strict_iff := by
    rw [← boolean?_eq_some_iff]
    show (args.strict || (boolean? config "output" "strict").getD false) = true ↔ _
    cases boolean? config "output" "strict" <;> simp
  banner_iff := by
    rw [← boolean?_eq_some_iff]
    show (!args.noBanner && (boolean? config "repl" "banner").getD true) = true ↔ _
    cases boolean? config "repl" "banner" <;> simp

/-- A format that is not refused is that of its name. -/
theorem configFormat_good (h : ∀ value, ¬ BadFormat config value) :
    configFormat room config = .ok ((nested? config "output" "format").bind formatOf?) := by
  unfold configFormat
  cases hvalue : nested? config "output" "format" with
  | none => rfl
  | some value =>
    cases hof : formatOf? value with
    | none => exact absurd (badFormat_iff.2 ⟨hvalue, hof⟩) (h value)
    | some f => simp [hof]

/-- `Settles room args config result`: what a configuration comes to.  A prompt that cannot be written
comes before any format, and a format that is none is written in the fault. -/
inductive Settles (room : Nat) (args : Args) (config : Fields) :
    Except ConfigFault Options → Prop where
  | writingPrompt {value : Datum} {reached : LimitReached}
      (hvalue : Holds config "repl" "prompt" value) (hlimit : value.limit? room = some reached) :
      Settles room args config (.error (.limit reached))
  | writingFormat {value : Datum} {reached : LimitReached} (hprompt : HasPrompt room config)
      (hbad : BadFormat config value) (hlimit : value.limit? room = some reached) :
      Settles room args config (.error (.limit reached))
  | invalidFormat {value : Datum} (hprompt : HasPrompt room config) (hbad : BadFormat config value)
      (hlimit : value.limit? room = none) : Settles room args config (.error (.invalidFormat value))
  | settled {options : Options} (hprompt : HasPrompt room config)
      (hgood : ∀ value, ¬ BadFormat config value) (hlayers : Layered args config options) :
      Settles room args config (.ok options)

/-- Every configuration comes to something. -/
theorem exists_settles (room : Nat) (args : Args) (config : Fields) :
    ∃ result, Settles room args config result := by
  by_cases hprompt : HasPrompt room config
  · by_cases hbad : ∃ value, BadFormat config value
    · obtain ⟨value, hvalue⟩ := hbad
      cases hlimit : value.limit? room with
      | none => exact ⟨_, .invalidFormat hprompt hvalue hlimit⟩
      | some reached => exact ⟨_, .writingFormat hprompt hvalue hlimit⟩
    · exact ⟨_, .settled hprompt (not_exists.1 hbad) (layered_ofLayers args config)⟩
  · obtain ⟨value, hvalue, hsome⟩ : ∃ value, nested? config "repl" "prompt" = some value ∧
        value.limit? room ≠ none := by simpa [HasPrompt] using hprompt
    obtain ⟨reached, hlimit⟩ := Option.ne_none_iff_exists'.1 hsome
    exact ⟨_, .writingPrompt (nested?_eq_some_iff.1 hvalue) hlimit⟩

theorem Settles.merge {result : Except ConfigFault Options} (h : Settles room args config result) :
    Options.merge room args config = result := by
  cases h with
  | writingPrompt hvalue hlimit =>
    rw [Options.merge, configPrompt_limit (nested?_eq_some_iff.2 hvalue) hlimit]
  | writingFormat hprompt hbad hlimit =>
    obtain ⟨hvalue, hnone⟩ := badFormat_iff.1 hbad
    rw [Options.merge, hprompt.configPrompt, configFormat_limit hvalue hnone hlimit]
  | invalidFormat hprompt hbad hlimit =>
    obtain ⟨hvalue, hnone⟩ := badFormat_iff.1 hbad
    rw [Options.merge, hprompt.configPrompt, configFormat_invalid hvalue hnone hlimit]
  | settled hprompt hgood hlayers =>
    rw [hlayers.unique (layered_ofLayers args config) hgood, Options.merge, hprompt.configPrompt,
      configFormat_good hgood]
    rfl

/-- **What arguments and a configuration come to**, exactly. -/
theorem merge_eq_iff {result : Except ConfigFault Options} :
    Options.merge room args config = result ↔ Settles room args config result := by
  refine ⟨?_, Settles.merge⟩
  rintro rfl
  obtain ⟨result, h⟩ := exists_settles room args config
  rwa [h.merge]

theorem settles_invalidFormat_iff {value : Datum} :
    Settles room args config (.error (.invalidFormat value)) ↔
      HasPrompt room config ∧ BadFormat config value ∧ value.limit? room = none := by
  constructor
  · rintro (_ | _ | ⟨hprompt, hbad, hlimit⟩ | _)
    exact ⟨hprompt, hbad, hlimit⟩
  · rintro ⟨hprompt, hbad, hlimit⟩
    exact .invalidFormat hprompt hbad hlimit

theorem settles_limit_iff {reached : LimitReached} :
    Settles room args config (.error (.limit reached)) ↔
      (∃ value, Holds config "repl" "prompt" value ∧ value.limit? room = some reached) ∨
        HasPrompt room config ∧ ∃ value, BadFormat config value ∧
          value.limit? room = some reached := by
  constructor
  · rintro (⟨hvalue, hlimit⟩ | ⟨hprompt, hbad, hlimit⟩ | _ | _)
    · exact Or.inl ⟨_, hvalue, hlimit⟩
    · exact Or.inr ⟨hprompt, _, hbad, hlimit⟩
  · rintro (⟨value, hvalue, hlimit⟩ | ⟨hprompt, value, hbad, hlimit⟩)
    · exact .writingPrompt hvalue hlimit
    · exact .writingFormat hprompt hbad hlimit

theorem settles_ok_iff :
    Settles room args config (.ok options) ↔
      HasPrompt room config ∧ (∀ value, ¬ BadFormat config value) ∧
        Layered args config options := by
  constructor
  · rintro (_ | _ | _ | ⟨hprompt, hgood, hlayers⟩)
    exact ⟨hprompt, hgood, hlayers⟩
  · rintro ⟨hprompt, hgood, hlayers⟩
    exact .settled hprompt hgood hlayers

theorem SameLayers.badFormat_iff (h : SameLayers args config args' config') (value : Datum) :
    BadFormat config' value ↔ BadFormat config value :=
  and_congr_left' (h.format value)

theorem SameLayers.layered (h : SameLayers args config args' config')
    (hlayers : Layered args config options) : Layered args' config' options where
  input := hlayers.input.trans h.input.symm
  prompt_given := by rw [h.prompt_given]; exact hlayers.prompt_given
  prompt_config := by simp only [h.prompt_given, h.prompt]; exact hlayers.prompt_config
  prompt_default := by simp only [h.prompt_given, h.prompt]; exact hlayers.prompt_default
  format_given := by rw [h.format_given]; exact hlayers.format_given
  format_config := by simp only [h.format_given, h.format]; exact hlayers.format_config
  format_default := by simp only [h.format_given, h.format]; exact hlayers.format_default
  strict_iff := by rw [h.strict_given, h.strict]; exact hlayers.strict_iff
  banner_iff := by rw [h.banner_given, h.banner]; exact hlayers.banner_iff

/-- **Runs whose layers agree come to the same.** -/
theorem SameLayers.settles (h : SameLayers args config args' config')
    {result : Except ConfigFault Options} (hsettles : Settles room args config result) :
    Settles room args' config' result := by
  have hprompt (hfits : HasPrompt room config) : HasPrompt room config' := by
    rw [hasPrompt_iff] at hfits ⊢
    exact fun value hvalue => hfits value ((h.prompt value).1 hvalue)
  cases hsettles with
  | writingPrompt hvalue hlimit => exact .writingPrompt ((h.prompt _).2 hvalue) hlimit
  | writingFormat hfits hbad hlimit =>
    exact .writingFormat (hprompt hfits) ((h.badFormat_iff _).2 hbad) hlimit
  | invalidFormat hfits hbad hlimit =>
    exact .invalidFormat (hprompt hfits) ((h.badFormat_iff _).2 hbad) hlimit
  | settled hfits hgood hlayers =>
    refine .settled (hprompt hfits) (fun value hbad => ?_) (h.layered hlayers)
    exact hgood value ((h.badFormat_iff value).1 hbad)

/-- The format is one of the two, unless the command line gives none in its place. -/
theorem Layered.format_named (h : Layered args config options)
    (hgood : ∀ value, ¬ BadFormat config value) (hgiven : args.format ≠ some .bare) :
    ∃ f, options.format = .value f := by
  rw [h.unique (layered_ofLayers args config) hgood]
  unfold Options.ofLayers
  rcases hformat : args.format with _ | _ | _
  · exact ⟨_, rfl⟩
  · exact ⟨_, rfl⟩
  · exact absurd hformat hgiven

end Merge

/-! ## Options of a run -/

theorem loadConfig_congr {room : Nat} {fs fs' : FileSystem} {path : Path} (h : fs' path = fs path) :
    loadConfig room fs' path = loadConfig room fs path := by
  unfold loadConfig
  rw [h]

/-- `Selects args path`: the configuration file is at `path`.  It is the named one, or else the one
beside the file to read, or else the one in the current directory; an empty name counts for none. -/
inductive Selects (args : Args) : Path → Prop where
  | named {name : String} (hname : args.config = some (.value name)) (hne : name ≠ "") :
      Selects args (Path.ofText name)
  | beside {text : String} (hname : ∀ name, args.config = some (.value name) → name = "")
      (hinput : args.input = some text) (hne : text ≠ "") :
      Selects args ((Path.ofText text).parent.child "nipl.toml")
  | here (hname : ∀ name, args.config = some (.value name) → name = "")
      (hinput : ∀ text, args.input = some text → text = "") :
      Selects args (Path.current.child "nipl.toml")

theorem namedConfig_eq_none {args : Args}
    (h : ∀ name, args.config = some (.value name) → name = "") : namedConfig args = none := by
  unfold namedConfig
  split
  · rename_i name hname
    rw [if_pos (h name hname)]
  · rfl

theorem Selects.configFile {args : Args} {path : Path} (h : Selects args path) :
    configFile args = path := by
  unfold Lexline.configFile configPath
  cases h with
  | named hname hne => simp [namedConfig, hname, hne]
  | beside hname hinput hne =>
    rw [namedConfig_eq_none hname]
    simp [baseDirectory, inputPath, hinput, hne, configName]
  | here hname hinput =>
    rw [namedConfig_eq_none hname]
    rcases hgiven : args.input with _ | text
    · simp [baseDirectory, inputPath, hgiven, configName]
    · simp [baseDirectory, inputPath, hgiven, hinput text hgiven, configName]

theorem exists_selects (args : Args) : ∃ path, Selects args path := by
  by_cases hname : ∀ name, args.config = some (.value name) → name = ""
  · by_cases hinput : ∀ text, args.input = some text → text = ""
    · exact ⟨_, .here hname hinput⟩
    · push Not at hinput
      obtain ⟨text, htext, hne⟩ := hinput
      exact ⟨_, .beside hname htext hne⟩
  · push Not at hname
    obtain ⟨name, hgiven, hne⟩ := hname
    exact ⟨_, .named hgiven hne⟩

/-- **One file may hold the configuration.** -/
theorem configFile_eq_iff {args : Args} {path : Path} :
    configFile args = path ↔ Selects args path := by
  refine ⟨?_, Selects.configFile⟩
  rintro rfl
  obtain ⟨path, h⟩ := exists_selects args
  rwa [h.configFile]

/-- **The options of a run are layered.**  A run whose configuration file holds a table has options
unless a value of the table stands against it: a prompt that cannot be written, or a format that is
none, whether or not the command line gives one.  Such a format is reported, unless it cannot be
written.  The options are taken layer by layer; the format is one of the two, unless the command line
has the end of the flags in its place.  The configuration file is the named one, or else the one that
is looked for; a path without a file counts as an empty table.  Nothing else in the files has a say,
and in the configuration file nothing but four of its values. -/
theorem options_are_layered (room : Nat) (fs : FileSystem) (args : Args) (config : Fields)
    (hconfig : loadConfig (room - 1) fs (configFile args) = .ok config) :
    let result := Options.resolve room fs args
    let fits := ∀ value, Holds config "repl" "prompt" value → value.limit? room = none
    (∀ value, result = .error (.invalidFormat value) ↔
      fits ∧ BadFormat config value ∧ value.limit? room = none) ∧
    (∀ reached, result = .error (.limit reached) ↔
      (∃ value, Holds config "repl" "prompt" value ∧ value.limit? room = some reached) ∨
        fits ∧ ∃ value, BadFormat config value ∧ value.limit? room = some reached) ∧
    (∀ options, result = .ok options ↔
      fits ∧ (∀ value, ¬ BadFormat config value) ∧ Layered args config options) ∧
    ((∃ value, result = .error (.invalidFormat value)) ∨
      (∃ reached, result = .error (.limit reached)) ∨ ∃ options, result = .ok options) ∧
    (∀ options, result = .ok options → args.format ≠ some .bare →
      ∃ f, options.format = .value f) ∧
    (∀ path, configFile args = path ↔ Selects args path) ∧
    ((fs (configFile args)).isAbsent = true → config = []) ∧
    (∀ fs', fs' (configFile args) = fs (configFile args) →
      Options.resolve room fs' args = result) ∧
    (∀ fs' args' config', loadConfig (room - 1) fs' (configFile args') = .ok config' →
      SameLayers args config args' config' → Options.resolve room fs' args' = result) := by
  intro result fits
  have hfits : HasPrompt room config ↔ fits := hasPrompt_iff
  have hmerge : result = Options.merge room args config := by
    show Options.resolve room fs args = _
    rw [resolve_eq, hconfig]
    rfl
  have hsettles (r : Except ConfigFault Options) : result = r ↔ Settles room args config r := by
    rw [hmerge, merge_eq_iff]
  refine ⟨?_, ?_, ?_, ?_, ?_, fun _ => configFile_eq_iff, ?_, ?_, ?_⟩
  · intro value
    rw [hsettles, settles_invalidFormat_iff, hfits]
  · intro reached
    rw [hsettles, settles_limit_iff, hfits]
  · intro options
    rw [hsettles, settles_ok_iff, hfits]
  · obtain ⟨r, hr⟩ := exists_settles room args config
    have hresult := (hsettles r).2 hr
    cases hr with
    | writingPrompt => exact Or.inr (Or.inl ⟨_, hresult⟩)
    | writingFormat => exact Or.inr (Or.inl ⟨_, hresult⟩)
    | invalidFormat => exact Or.inl ⟨_, hresult⟩
    | settled => exact Or.inr (Or.inr ⟨_, hresult⟩)
  · intro options hoptions hgiven
    cases (hsettles _).1 hoptions with
    | settled _ hgood hlayers => exact hlayers.format_named hgood hgiven
  · intro habsent
    rw [loadConfig_absent habsent] at hconfig
    exact (Except.ok.inj hconfig).symm
  · intro fs' hsame
    show _ = Options.resolve room fs args
    rw [resolve_eq, resolve_eq, loadConfig_congr hsame]
  · intro fs' args' config' hconfig' hsame
    rw [resolve_eq, hconfig']
    exact (hsame.settles ((hsettles _).1 rfl)).merge

/-- A prompt that is a truth value and a banner that is none; and another file, named on the command
line, with the same prompt and format, and a banner where none is looked for. -/
theorem options_are_layered_from_files :
    let fs : FileSystem := fun path =>
      if path = ⟨.here, ["nipl.toml"]⟩ then
        .file (Utf8.encode "[repl]\nprompt = true\nbanner = 'off'\n[output]\nformat = 'json'".toList)
      else if path = ⟨.here, ["d", "x"]⟩ then
        .file (Utf8.encode "banner = false\nrepl.prompt = true\noutput.format = \"json\"\n".toList)
      else .missing
    let args : Args := ⟨some "", none, none, none, true, false⟩
    let args' : Args := ⟨none, some (.value "d/x"), none, none, true, false⟩
    Options.resolve 100 fs args = .ok ⟨none, .value "True", true, .value .json, true⟩ ∧
      Options.resolve 100 fs args' = Options.resolve 100 fs args := by
  intro fs args args'
  let config : Fields := [("repl", .table [("prompt", .boolean true), ("banner", .text "off")]),
    ("output", .table [("format", .text "json")])]
  let config' : Fields := [("banner", .boolean false), ("repl", .table [("prompt", .boolean true)]),
    ("output", .table [("format", .text "json")])]
  have hconfig : loadConfig (100 - 1) fs (configFile args) =
      .ok [("repl", .table [("prompt", .boolean true), ("banner", .text "off")]),
        ("output", .table [("format", .text "json")])] := by
    cbv
  have hconfig' : loadConfig (100 - 1) fs (configFile args') =
      .ok [("banner", .boolean false), ("repl", .table [("prompt", .boolean true)]),
        ("output", .table [("format", .text "json")])] := by
    cbv
  have hprompt : nested? config "repl" "prompt" = some (.boolean true) := rfl
  have hformat : nested? config "output" "format" = some (.text Format.json.name) := rfl
  have hlayers : Layered args config ⟨none, .value "True", true, .value .json, true⟩ :=
    layered_ofLayers args config
  have hsame : SameLayers args config args' config' := by
    refine ⟨rfl, rfl, rfl, rfl, rfl, ?_, ?_, ?_, ?_⟩
    · intro value
      rw [← nested?_eq_some_iff, ← nested?_eq_some_iff]
      rfl
    · intro value
      rw [← nested?_eq_some_iff, ← nested?_eq_some_iff]
      rfl
    · rw [← boolean?_eq_some_iff, ← boolean?_eq_some_iff]
      rfl
    · rw [← boolean?_eq_some_iff, ← boolean?_eq_some_iff]
      rfl
  obtain ⟨_, _, hok, _, _, _, _, _, htwo⟩ := options_are_layered 100 fs args config hconfig
  refine ⟨(hok _).2 ⟨?_, ?_, hlayers⟩, htwo fs args' config' hconfig' hsame⟩
  · intro value hvalue
    rw [← nested?_eq_some_iff, hprompt] at hvalue
    rw [← Option.some.inj hvalue]
    rfl
  · rintro value ⟨hvalue, hnone⟩
    rw [← nested?_eq_some_iff, hformat] at hvalue
    exact hnone .json (Option.some.inj hvalue).symm

/-- The first number too long to write, in the place of the format: the fault says so, and not what
the format is. -/
theorem long_format_meets_limit :
    let n : Int := Nat.pow 10 Limit.numeralDigits
    let config : Fields := [("output", .table [("format", .integer n)])]
    BadFormat config (.integer n) ∧
      Options.merge 100 .none config = .error (.limit .writtenNumeral) := by
  intro n config
  have hnumeral : Limit.hasNumeral n = false := by
    unfold n Limit.hasNumeral
    generalize Nat.pow 10 Limit.numeralDigits = bound
    simp
  clear_value n
  have hbad : BadFormat config (.integer n) := ⟨⟨_, rfl, rfl⟩, fun f hf => by cases hf⟩
  have hprompt : HasPrompt 100 config := by
    intro value hvalue
    cases hvalue
  have hlimit : (Datum.integer n).limit? 100 = some .writtenNumeral := by
    show (if Limit.hasNumeral n then none else some LimitReached.writtenNumeral) = _
    rw [hnumeral]
    rfl
  exact ⟨hbad, (Settles.writingFormat hprompt hbad hlimit).merge⟩

end Lexline
