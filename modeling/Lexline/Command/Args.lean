import Lexline.Record
import Lexline.Text.Character
import Lexline.Text.Escape

/-!
# Command-line arguments

A word is a flag, an operand, or the mark `--` after which every word is an operand.  Long flags
may be shortened to any start that fits one of them only, and a value may be attached with an
equals sign.

* `Flag` — the flags.
* `Word.classify` — what a word is, apart from its place.
* `Args.parse` — the arguments that a list of words denotes, or the reason to stop.  A mark `--`
  attached to a flag is its value, or is dropped by the parsers of older versions.
* `ArgFault.message` — the wording of a fault.
-/

namespace Lexline

/-- The flags that take a value. -/
inductive Setting where
  | config
  | prompt
  | format
  deriving DecidableEq, Repr

/-- The flags that take none. -/
inductive Switch where
  | help
  | strict
  | noBanner
  deriving DecidableEq, Repr

/-- The flags. -/
inductive Flag where
  | setting (s : Setting)
  | switch (s : Switch)
  deriving DecidableEq, Repr

namespace Flag

/-- The flags, in the order in which they are listed. -/
def all : List Flag :=
  [switch .help, setting .config, setting .prompt, setting .format, switch .strict,
   switch .noBanner]

/-- The long name of a flag. -/
def long : Flag → String
  | switch .help => "--help"
  | setting .config => "--config"
  | setting .prompt => "--prompt"
  | setting .format => "--format"
  | switch .strict => "--strict"
  | switch .noBanner => "--no-banner"

/-- The name of a flag in a fault. -/
def label : Flag → String
  | switch .help => "-h/--help"
  | other => other.long

/-- The flag with a given name, and whether the name is the short one. -/
def ofName? (name : String) : Option (Flag × Bool) :=
  if name = "-h" then some (switch .help, true)
  else (all.find? (fun f => f.long == name)).map (fun f => (f, false))

end Flag

/-- Why arguments are refused. -/
inductive ArgFault where
  | ambiguous (word : String) (candidates : List Flag)
  | expectedValue (setting : Setting)
  | ignoredValue (flag : Flag) (value : String)
  | invalidFormat (value : String)
  | unrecognized (words : List String)
  deriving DecidableEq, Repr

/-- The wording of a fault. -/
def ArgFault.message : ArgFault → String
  | ambiguous word candidates =>
    "ambiguous option: " ++ word ++ " could match " ++ ", ".intercalate (candidates.map Flag.long)
  | expectedValue setting =>
    "argument " ++ (Flag.setting setting).label ++ ": expected one argument"
  | ignoredValue flag value =>
    "argument " ++ flag.label ++ ": ignored explicit argument " ++ Text.quote value
  | invalidFormat value =>
    "argument " ++ (Flag.setting .format).label ++ ": invalid choice: " ++ Text.quote value ++
      " (choose from " ++ ", ".intercalate (Format.all.map (fun f => Text.quote f.name)) ++ ")"
  | unrecognized words => "unrecognized arguments: " ++ " ".intercalate words

/-! ## Words -/

/-- What a word is: an operand, the mark that ends the flags, a flag, a flag with a value attached
to its short or long name, or something like a flag that is none. -/
inductive Word where
  | operand (text : String)
  | mark
  | flag (f : Flag)
  | attached (f : Flag) (short : Bool) (value : String)
  | unknown (text : String)
  deriving DecidableEq, Repr

namespace Word

/-- The part of a text before its first equals sign, and the part after it. -/
def splitEquals : List Char → Option (List Char × List Char)
  | [] => none
  | '=' :: rest => some ([], rest)
  | c :: rest => (splitEquals rest).map (fun (a, b) => (c :: a, b))

/-- Whether a text is a negative number: a minus sign and digits, possibly with a point before
the last of them.  A line feed at the end does not count. -/
def isNegativeNumber (text : List Char) : Bool :=
  let text := if text.getLast? = some '\n' then text.dropLast else text
  match text with
  | '-' :: body =>
    let rest := body.dropWhile Text.isDecimalDigit
    match rest with
    | [] => body != []
    | '.' :: fraction => fraction != [] && fraction.all Text.isDecimalDigit
    | _ => false
  | _ => false

/-- What a word is that starts with a minus sign and has no flag's full name. -/
def operandOrUnknown (word : String) : Word :=
  if isNegativeNumber word.toList || word.toList.contains ' ' then operand word else unknown word

/-- A flag and the value attached to it, if there is one. -/
def withValue (f : Flag) (short : Bool) : Option String → Word
  | none => flag f
  | some value => attached f short value

/-- The flag whose name a long word shortens. -/
def shortened (word name : String) (value : Option String) : Except ArgFault Word :=
  match Flag.all.filter (fun f => name.toList.isPrefixOf f.long.toList) with
  | [] => .ok (operandOrUnknown word)
  | [f] => .ok (withValue f false value)
  | candidates => .error (.ambiguous word candidates)

/-- What a word is, if it stands before the mark. -/
def classify (word : String) : Except ArgFault Word :=
  let chars := word.toList
  if chars.head? ≠ some '-' then .ok (operand word)
  else
    match Flag.ofName? word with
    | some (f, _) => .ok (flag f)
    | none =>
      if chars.length = 1 then .ok (operand word)
      else
        let cut := splitEquals chars
        let name := (cut.map (fun p => String.ofList p.1)).getD word
        let value := cut.map (fun p => String.ofList p.2)
        match if value.isSome then Flag.ofName? name else none with
        | some (f, short) => .ok (withValue f short value)
        | none =>
          match chars with
          | '-' :: '-' :: _ => shortened word name value
          | '-' :: 'h' :: letters => .ok (attached (.switch .help) true (String.ofList letters))
          | _ => .ok (operandOrUnknown word)

/-- What the words of a command line are. -/
def classifyAll : List String → Except ArgFault (List Word)
  | [] => .ok []
  | word :: rest =>
    if word = "--" then .ok (mark :: rest.map operand)
    else
      match classify word with
      | .error fault => .error fault
      | .ok w =>
        match classifyAll rest with
        | .error fault => .error fault
        | .ok ws => .ok (w :: ws)

end Word

/-! ## Arguments -/

/-- What a flag was given: a value, or nothing but a mark `--` that the parser drops. -/
inductive Given (α : Type) where
  | value (a : α)
  | bare
  deriving DecidableEq, Repr

/-- The arguments of a run. -/
structure Args where
  input : Option String
  config : Option (Given String)
  prompt : Option (Given String)
  format : Option (Given Format)
  strict : Bool
  noBanner : Bool
  deriving DecidableEq, Repr

/-- Why a command line gives no arguments: help is asked for, or they are refused. -/
inductive Stop where
  | help
  | fault (fault : ArgFault)
  deriving DecidableEq, Repr

namespace Args

/-- The arguments of an empty command line. -/
def none : Args := ⟨.none, .none, .none, .none, false, false⟩

/-- What a text gives to a flag.  Parsers that drop the mark leave nothing of it. -/
def given (dropsMark : Bool) (text : String) : Given String :=
  if dropsMark && text == "--" then .bare else .value text

/-- What a text gives to the flag for the format. -/
def givenFormat (dropsMark : Bool) (text : String) : Except ArgFault (Given Format) :=
  match given dropsMark text with
  | .bare => .ok .bare
  | .value name =>
    match Format.ofName? name with
    | .none => .error (.invalidFormat name)
    | .some f => .ok (.value f)

/-- The arguments with a value for a setting. -/
def set (dropsMark : Bool) (args : Args) (setting : Setting) (text : String) : Except Stop Args :=
  match setting with
  | .config => .ok { args with config := some (given dropsMark text) }
  | .prompt => .ok { args with prompt := some (given dropsMark text) }
  | .format =>
    match givenFormat dropsMark text with
    | .error fault => .error (.fault fault)
    | .ok f => .ok { args with format := some f }

/-- The arguments with a switch turned on. -/
def turnOn (args : Args) (switch : Switch) : Except Stop Args :=
  match switch with
  | .strict => .ok { args with strict := true }
  | .noBanner => .ok { args with noBanner := true }
  | .help => .error .help

/-- Letters after a short flag are short flags too, and there is one only. -/
def cluster : List Char → Stop
  | [] => .help
  | 'h' :: rest => cluster rest
  | value => .fault (.ignoredValue (.switch .help) (String.ofList value))

/-- The arguments with a flag that has a value attached. -/
def setAttached (dropsMark : Bool) (args : Args) (flag : Flag) (short : Bool) (text : String) :
    Except Stop Args :=
  match flag with
  | .setting s => args.set dropsMark s text
  | .switch _ =>
    if short && text != "" then .error (cluster text.toList)
    else .error (.fault (.ignoredValue flag text))

/-- What the words so far have set: the arguments, whether the operand is settled, and the words
that nothing takes. -/
structure Progress where
  args : Args
  settled : Bool
  surplus : List String
  deriving DecidableEq, Repr

/-- The progress with a word that nothing takes. -/
def Progress.spare (p : Progress) (text : String) : Progress :=
  { p with surplus := p.surplus ++ [text] }

/-- The progress with the operand. -/
def Progress.settle (p : Progress) (text : String) : Progress :=
  { p with args := { p.args with input := some text }, settled := true }

/-- Goes through the words from left to right.  The operand takes the mark before it or after it
along. -/
def consume (dropsMark : Bool) (p : Progress) : List Word → Except Stop Progress
  | [] => .ok p
  | .unknown text :: rest => consume dropsMark (p.spare text) rest
  | .operand text :: .mark :: rest =>
    consume dropsMark (if p.settled then (p.spare text).spare "--" else p.settle text) rest
  | .operand text :: rest =>
    consume dropsMark (if p.settled then p.spare text else p.settle text) rest
  | .mark :: .operand text :: rest =>
    consume dropsMark (if p.settled then (p.spare "--").spare text else p.settle text) rest
  | .mark :: rest =>
    consume dropsMark (if p.settled then p.spare "--" else { p with settled := true }) rest
  | .attached f short text :: rest =>
    match p.args.setAttached dropsMark f short text with
    | .error stop => .error stop
    | .ok args => consume dropsMark { p with args := args } rest
  | .flag (.setting s) :: .operand text :: rest =>
    match p.args.set dropsMark s text with
    | .error stop => .error stop
    | .ok args => consume dropsMark { p with args := args } rest
  | .flag (.setting s) :: _ => .error (.fault (.expectedValue s))
  | .flag (.switch s) :: rest =>
    match p.args.turnOn s with
    | .error stop => .error stop
    | .ok args => consume dropsMark { p with args := args } rest

/-- The arguments that a command line denotes. -/
def parse (dropsMark : Bool) (words : List String) : Except Stop Args :=
  match Word.classifyAll words with
  | .error fault => .error (.fault fault)
  | .ok ws =>
    match consume dropsMark ⟨.none, false, []⟩ ws with
    | .error stop => .error stop
    | .ok p => if p.surplus = [] then .ok p.args else .error (.fault (.unrecognized p.surplus))

end Args

/-! ## Usage -/

/-- The usage of the program. -/
def usage : String :=
  "usage: nipl [-h] [--config FILE] [--prompt TEXT] [--format \x7btext,json\x7d]\n" ++
  "            [--strict] [--no-banner]\n" ++
  "            [input]\n"

/-- The help of the program. -/
def helpText : String :=
  usage ++
  "\nnipl tokenizer: interactive read loop or line-by-line file dump\n" ++
  "\npositional arguments:\n" ++
  "  input                 Source file to tokenize (default: start the REPL)\n" ++
  "\noptions:\n" ++
  "  -h, --help            show this help message and exit\n" ++
  "  --config FILE         Config file (default: auto-discover nipl.toml)\n" ++
  "  --prompt TEXT         REPL prompt (default: '>> ')\n" ++
  "  --format \x7btext,json\x7d  Token output format (default: text)\n" ++
  "  --strict              Report illegal characters as errors\n" ++
  "  --no-banner           Do not print the REPL banner\n"

/-- What is written on standard error about refused arguments. -/
def usageFault (fault : ArgFault) : String := usage ++ "nipl: error: " ++ fault.message ++ "\n"

end Lexline
