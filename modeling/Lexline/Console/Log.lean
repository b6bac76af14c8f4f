/-!
# The console log

What a program writes on its two streams, write by write, in order.

* `Write`, `Log` — one write, and the sequence of them.
* `Log.written` — the whole text written on one stream.
* `Log.collapse` — the log without empty writes, neighbours on one stream joined.
-/

namespace Lexline

/-- The two output streams. -/
inductive Stream where
  | out
  | err
  deriving DecidableEq, Repr

/-- A text written on a stream. -/
structure Write where
  stream : Stream
  text : List Char
  deriving DecidableEq, Repr

/-- The writes of a run, the first one first. -/
abbrev Log := List Write

namespace Log

/-- A write on standard output. -/
def out (text : List Char) : Write := ⟨.out, text⟩

/-- A write on standard error. -/
def err (text : List Char) : Write := ⟨.err, text⟩

/-- A line of text on standard error. -/
def errLine (text : List Char) : Write := err (text ++ ['\n'])

/-- The whole text written on one stream. -/
def written (stream : Stream) (log : Log) : List Char :=
  (log.filter (fun w => w.stream == stream)).flatMap Write.text

/-- Puts a write in front of a log that is collapsed. -/
def joinFront (w : Write) : Log → Log
  | [] => [w]
  | v :: rest =>
    if v.stream = w.stream then ⟨w.stream, w.text ++ v.text⟩ :: rest else w :: v :: rest

/-- The log without empty writes, neighbours on one stream joined. -/
def collapse : Log → Log
  | [] => []
  | w :: rest => if w.text = [] then collapse rest else joinFront w (collapse rest)

end Log

end Lexline
