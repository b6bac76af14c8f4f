import Lexline.Command.Args
import Lexline.Console.Loop
import Lexline.Files.FileSystem
import Lexline.Toml.Document

/-!
# Options

The options of a run come from three layers: what holds by default, the configuration file, and
the command line, each over the one before.

* `configPath` — the one file that may hold the configuration.
* `loadConfig` — its table; a path that is no file counts as an empty one.
* `Options.merge` — the options that arguments and a table give.
* `Options.resolve` — the options of a run.
-/

namespace Lexline

/-- The name of a configuration file that is looked for. -/
def configName : String := "nipl.toml"

/-- The options of a run. -/
structure Options where
  input : Option Path
  prompt : Given String
  banner : Bool
  format : Given Format
  strict : Bool
  deriving DecidableEq, Repr

/-- Why a run has no options. -/
inductive ConfigFault where
  | malformed (malformation : Toml.Malformation)
  | invalidFormat (value : Datum)
  | unreadable (fault : FileFault)
  | limit (reached : LimitReached)
  deriving Repr

/-- The wording of a fault. -/
def ConfigFault.message : ConfigFault → String
  | malformed malformation => malformation.message
  | invalidFormat value => "invalid output format in config: " ++ value.describe
  | unreadable fault => fault.message
  | limit reached => reached.message

/-- Whether a run reports a fault and ends, or fails with it. -/
def ConfigFault.isReported : ConfigFault → Bool
  | malformed _ => true
  | invalidFormat _ => true
  | unreadable _ => false
  | limit _ => false

/-! ## The configuration file -/

/-- The file to read, unless none is named. -/
def inputPath (args : Args) : Option Path :=
  match args.input with
  | none => none
  | some text => if text = "" then none else some (Path.ofText text)

/-- The configuration file that the arguments name. -/
def namedConfig (args : Args) : Option Path :=
  match args.config with
  | some (.value text) => if text = "" then none else some (Path.ofText text)
  | _ => none

/-- The directory in which a configuration file is looked for: that of the file to read, or the
current one. -/
def baseDirectory (args : Args) : Path := ((inputPath args).map Path.parent).getD Path.current

/-- The one file that may hold the configuration: the named one, or the one in a directory. -/
def configPath (named : Option Path) (directory : Path) : Path :=
  named.getD (directory.child configName)

/-- The table of a configuration file, read in some room.  A path that leads to no file counts as
an empty one. -/
def loadConfig (room : Nat) (fs : FileSystem) (path : Path) : Except ConfigFault Fields :=
  match fs path with
  | .file bytes =>
    match Text.Utf8.decode bytes with
    | .error fault => .error (.unreadable (.undecodable fault))
    | .ok text =>
      match Toml.parse room text with
      | .error (.malformed malformation) => .error (.malformed malformation)
      | .error (.limit limit) => .error (.limit limit)
      | .ok fields => .ok fields
  | .nameTooLong => .error (.unreadable (.nameTooLong path))
  | _ => .ok []

/-! ## Layers -/

/-- A value two names deep in a table, if the first name leads to a table. -/
def nested? (config : Fields) (outer inner : String) : Option Datum :=
  match config.lookup outer with
  | some (.table fields) => fields.lookup inner
  | _ => none

/-- A truth value two names deep in a table; a value of any other kind does not count. -/
def boolean? (config : Fields) (outer inner : String) : Option Bool :=
  match nested? config outer inner with
  | some (.boolean b) => some b
  | _ => none

/-- The prompt that a table asks for: the text of a value of any kind, written in some room. -/
def configPrompt (room : Nat) (config : Fields) : Except ConfigFault (Option String) :=
  match nested? config "repl" "prompt" with
  | none => .ok none
  | some value =>
    match value.limit? room with
    | some limit => .error (.limit limit)
    | none => .ok (some value.display)

/-- The format with a value for its name. -/
def formatOf? : Datum → Option Format
  | .text name => Format.ofName? name
  | _ => none

/-- The format that a table asks for.  Any other value is refused, and written in some room. -/
def configFormat (room : Nat) (config : Fields) : Except ConfigFault (Option Format) :=
  match nested? config "output" "format" with
  | none => .ok none
  | some value =>
    match formatOf? value, value.limit? room with
    | some f, _ => .ok (some f)
    | none, some limit => .error (.limit limit)
    | none, none => .error (.invalidFormat value)

/-- The options that arguments and a table give. -/
def Options.merge (room : Nat) (args : Args) (config : Fields) : Except ConfigFault Options :=
  match configPrompt room config with
  | .error fault => .error fault
  | .ok prompt =>
    match configFormat room config with
    | .error fault => .error fault
    | .ok format =>
      .ok {
        input := inputPath args
        prompt := args.prompt.getD (.value (prompt.getD Loop.defaultPrompt))
        banner := !args.noBanner && (boolean? config "repl" "banner").getD true
        format := args.format.getD (.value (format.getD .text))
        strict := args.strict || (boolean? config "output" "strict").getD false }

/-- The options of a run.  The configuration file is read one layer further in. -/
def Options.resolve (room : Nat) (fs : FileSystem) (args : Args) : Except ConfigFault Options :=
  match loadConfig (room - 1) fs (configPath (namedConfig args) (baseDirectory args)) with
  | .error fault => .error fault
  | .ok config => Options.merge room args config

end Lexline
