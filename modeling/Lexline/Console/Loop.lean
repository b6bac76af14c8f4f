import Lexline.Console.Feed
import Lexline.Console.Log
import Lexline.Cursor.Tokens
import Lexline.Record
import Lexline.Report
import Lexline.Text.Character

/-!
# The read loop

One line in, the records of its tokens out, until a line ends the session.

* `isTerminator` — the lines that end a session: the empty line, and `quit` between blanks.
* `Loop.answer?` — what one line writes, unless it ends the session.
* `Loop.session` — what a whole session writes.

Every line is scanned by itself; nothing carries over to the next one.
-/

namespace Lexline

/-- Whether a line ends the session.  The empty text stands for the end of the input. -/
def isTerminator (line : List Char) : Bool :=
  line == [] || line == ['\n'] || line == ['\r', '\n'] || Text.trim line == ['q', 'u', 'i', 't']

namespace Loop

/-- The prompt of a session that asks for no other. -/
def defaultPrompt : String := ">> "

/-- The greeting of a session. -/
def banner : String :=
  "==============================Starting REPL==============================\n\n" ++
  "    Welcome to the nipl repl...\n" ++
  "    Type in valid commands and process them.\n" ++
  "    Quit the terminal by entering a new line without any commands, or type 'quit'.\n\n" ++
  "=========================================================================\n"

/-- How a session looks. -/
structure Settings where
  prompt : String
  banner : Bool
  format : Format
  strict : Bool
  deriving DecidableEq, Repr

/-- The report that strict mode adds after the records of a line. -/
def complaint (line : List Char) : Log :=
  match firstIllegal? (scan line) line 0 with
  | none => []
  | some report => [Log.errLine (report.render Report.consoleName)]

/-- What the records of a line and the report on it write. -/
def echo (s : Settings) (line : List Char) : Log :=
  Log.out (dump s.format 0 (scan line)) :: (if s.strict then complaint line else [])

/-- What one line of a session writes; nothing comes after a line that ends it. -/
def answer? (s : Settings) (line : List Char) : Option Log :=
  if isTerminator line then none else some (echo s line)

/-- What the end of the input writes after the last prompt. -/
def farewell : Ending → Log
  | .endOfInput => []
  | .interrupt => [Log.out ['\n']]
  | .undecodable fault =>
    [Log.errLine ("error: cannot decode input: ".toList ++ fault.message.toList)]

/-- What asks for a line. -/
def ask (s : Settings) : Write := Log.out s.prompt.toList

/-- What a session writes from a prompt on. -/
def rounds (s : Settings) (ending : Ending) : List (List Char) → Log
  | [] => ask s :: farewell ending
  | line :: rest =>
    ask s ::
      match answer? s line with
      | none => []
      | some log => log ++ rounds s ending rest

/-- What a session writes before the first prompt. -/
def greeting (s : Settings) : Log := if s.banner then [Log.out banner.toList] else []

/-- What a whole session writes. -/
def session (s : Settings) (feed : Feed) : Log :=
  greeting s ++ rounds s feed.ending feed.lines

end Loop

end Lexline
