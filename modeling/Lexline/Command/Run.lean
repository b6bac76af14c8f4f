import Lexline.Command.Options

/-!
# Runs of the program

* `listFile` — the records of a file, line by line, and the exit code.
* `Input` — what stands on the console's input.
* `Platform` — what of the machine below the program shows in a run.
* `Completion`, `Run` — how a run ends, and what it writes.
* `run` — the run of the program on a command line.

Standard output and standard error are taken to have an encoding for every character, and standard
input to end or to be interrupted only where the feed says so.
-/

namespace Lexline

/-- The exit code and the log of a run that has come to its end. -/
structure Outcome where
  code : Nat
  log : Log
  deriving DecidableEq, Repr

/-! ## File mode -/

/-- The records of the lines of `source` from the one with index `k` on.  In strict mode the first
line with an illegal character is reported in place of its records, and ends the list. -/
def listLines (format : Format) (strict : Bool) (name : String) (source : List Char) (k : Nat) :
    List (List Char) → Outcome
  | [] => ⟨0, []⟩
  | line :: rest =>
    let ts := scan line
    match if strict then firstIllegal? ts source k else none with
    | some report => ⟨1, [Log.errLine (report.render name)]⟩
    | none =>
      let after := listLines format strict name source (k + 1) rest
      ⟨after.code, Log.out (dump format k ts) :: after.log⟩

/-- The records of a source, line by line. -/
def listSource (format : Format) (strict : Bool) (name : String) (source : List Char) : Outcome :=
  listLines format strict name source 0 (Text.splitLines source)

/-- The records of a file, line by line. -/
def listFile (fs : FileSystem) (path : Option Path) (format : Format) (strict : Bool) :
    Except FileFault Outcome :=
  match path with
  | none => .error .noInput
  | some path =>
    match readText fs path with
    | .error fault => .error fault
    | .ok source => .ok (listSource format strict path.text source)

/-! ## Whole runs -/

/-- What stands on the console's input: a text, or bytes. -/
inductive Input where
  | text (s : List Char)
  | bytes (b : List UInt8)
  deriving DecidableEq, Repr

/-- The lines of an input.  Bytes that are no text become U+FFFD. -/
def Input.feed : Input → Feed
  | .text s => Feed.ofText s
  | .bytes b => Feed.ofBytesLossy b

/-- What of the machine below the program shows in a run: the room that is left for values inside
values, whether the parser of the command line drops a mark `--` that is attached to a flag, and
whether standard output takes what is no text and writes nothing for it.  A text stream refuses
that. -/
structure Platform where
  room : Nat
  dropsMark : Bool
  takesAnything : Bool
  deriving DecidableEq, Repr

/-- What escapes a run: a fault of the configuration, one of the file to read, and a prompt that is
no text. -/
inductive RunFault where
  | config (fault : ConfigFault)
  | file (fault : FileFault)
  | prompt
  deriving Repr

/-- The wording of what escapes a run. -/
def RunFault.message : RunFault → String
  | config fault => fault.message
  | file fault => fault.message
  | prompt => "write() argument must be str, not list"

/-- How a run ends: with a result, at the command line, or with a fault that nothing reports. -/
inductive Completion where
  | returned (code : Nat)
  | stopped (code : Nat)
  | failed (fault : RunFault)
  deriving Repr

/-- How a run ends, and what it writes. -/
structure Run where
  completion : Completion
  log : Log
  deriving Repr

/-- A format; one given without a value is text. -/
def Given.format : Given Format → Format
  | .value f => f
  | .bare => .text

/-- A run that ends with an error line. -/
def Run.error (message : String) : Run :=
  ⟨.returned 2, [Log.errLine ("error: ".toList ++ message.toList)]⟩

/-- How a session with a given prompt looks. -/
def Options.settings (options : Options) (prompt : String) : Loop.Settings :=
  ⟨prompt, options.banner, options.format.format, options.strict⟩

/-- The session of a run that has no file to read.  Where the flag for the prompt was given nothing,
the prompt is no text, and a stream that refuses it ends the run after the greeting. -/
def runSession (takesAnything : Bool) (options : Options) (input : Input) : Run :=
  match options.prompt with
  | .value prompt => ⟨.returned 0, Loop.session (options.settings prompt) input.feed⟩
  | .bare =>
    let s := options.settings ""
    if takesAnything then ⟨.returned 0, Loop.session s input.feed⟩
    else ⟨.failed .prompt, Loop.greeting s⟩

/-- The run of file mode.  What goes wrong in reading is reported, except a path that no file can
have. -/
def runFile (fs : FileSystem) (options : Options) (path : Path) : Run :=
  match listFile fs (some path) options.format.format options.strict with
  | .ok outcome => ⟨.returned outcome.code, outcome.log⟩
  | .error .embeddedNul => ⟨.failed (.file .embeddedNul), []⟩
  | .error fault => .error ("cannot read " ++ path.text ++ ": " ++ fault.message)

/-- The run of the program on accepted arguments. -/
def runArgs (p : Platform) (fs : FileSystem) (input : Input) (args : Args) : Run :=
  match Options.resolve p.room fs args with
  | .error fault => if fault.isReported then .error fault.message else ⟨.failed (.config fault), []⟩
  | .ok options =>
    match options.input with
    | none => runSession p.takesAnything options input
    | some path => runFile fs options path

/-- The end of a run whose command line gives no arguments. -/
def runStop : Stop → Run
  | .help => ⟨.stopped 0, [Log.out helpText.toList]⟩
  | .fault fault => ⟨.stopped 2, [Log.err (usageFault fault).toList]⟩

/-- The run of the program on a command line. -/
def run (p : Platform) (fs : FileSystem) (input : Input) (words : List String) : Run :=
  match Args.parse p.dropsMark words with
  | .error stop => runStop stop
  | .ok args => runArgs p fs input args

end Lexline
