import Lexline.Command.Run

/-!
# The command line

The outer layer: it reads arguments, files and the console, and prints what a run writes.
-/

namespace Lexline.Main

/-- This machine: room for a thousand layers, a parser that keeps the mark, and streams of text. -/
def platform : Platform := ⟨1000, false, false⟩

/-- Prints what a run writes. -/
def emit (log : Log) : IO Unit := do
  for w in log do
    let stream ← match w.stream with
      | .out => IO.getStdout
      | .err => IO.getStderr
    stream.putStr (String.ofList w.text)
    stream.flush

/-- What opening a path finds on this machine. -/
def probe (path : Path) : IO Probe := do
  if path.text.toList.contains '\x00' then return .embeddedNul
  try
    let bytes ← IO.FS.readBinFile path.text
    return .file bytes.toList
  catch
    | .inappropriateType (some _) _ _ => return .notDirectory
    | .inappropriateType none _ _ => return .directory
    | .invalidArgument _ _ _ => return .nameTooLong
    | _ => return .missing

/-- The two files that a run may read. -/
def observe (args : Args) : IO FileSystem := do
  let config := configPath (namedConfig args) (baseDirectory args)
  let found ← probe config
  match inputPath args with
  | none => return fun path => if path = config then found else .missing
  | some input =>
    let source ← probe input
    return fun path => if path = input then source else if path = config then found else .missing

/-- The bytes of the console up to and with the next line feed. -/
partial def readBytes (stream : IO.FS.Stream) (taken : List UInt8) : IO (List UInt8) := do
  let next ← stream.read 1
  match next.toList with
  | [] => return taken.reverse
  | byte :: _ =>
    if byte == 10 then return (byte :: taken).reverse else readBytes stream (byte :: taken)

/-- The rounds of a session on the console.  Bytes up to a line feed may hold several lines. -/
partial def converse (s : Loop.Settings) (stream : IO.FS.Stream) (lines : List (List Char)) :
    IO Unit := do
  match lines with
  | line :: rest =>
    match Loop.answer? s line with
    | none => return ()
    | some log =>
      emit (log ++ [Loop.ask s])
      converse s stream rest
  | [] =>
    match (Feed.ofBytesLossy (← readBytes stream [])).lines with
    | [] => return ()
    | more => converse s stream more

/-- Prints a run and gives its exit code. -/
def finish (r : Run) : IO UInt32 := do
  emit r.log
  match r.completion with
  | .returned code => return code.toUInt32
  | .stopped code => return code.toUInt32
  | .failed fault => emit [Log.errLine fault.message.toList]; return 1

/-- A session, a file listing, or the end at the command line. -/
def start (words : List String) : IO UInt32 := do
  match Args.parse platform.dropsMark words with
  | .error stop => finish (runStop stop)
  | .ok args =>
    let fs ← observe args
    match Options.resolve platform.room fs args with
    | .error _ => finish (runArgs platform fs (.text []) args)
    | .ok options =>
      match options.input, options.prompt with
      | none, .value prompt =>
        let s := options.settings prompt
        emit (Loop.greeting s ++ [Loop.ask s])
        converse s (← IO.getStdin) []
        return 0
      | _, _ => finish (runArgs platform fs (.text []) args)

end Lexline.Main

/-- The program. -/
def main (words : List String) : IO UInt32 := Lexline.Main.start words
