import Lexline.Text.Line
import Lexline.Text.Utf8

/-!
# Console input

The input of a read loop is the lines it can serve and what happens when they are used up.

* `Feed.ofText` — a text stream, whose lines end at line feeds only.
* `Feed.ofBytes` — a byte stream, decoded as a whole at the first read; every line ending counts
  as a line feed.
* `Feed.ofBytesLossy` — the same with U+FFFD for every ill-formed range, so that nothing fails.
-/

namespace Lexline

/-- What a read meets after the last line. -/
inductive Ending where
  | endOfInput
  | interrupt
  | undecodable (fault : Text.Utf8.Fault)
  deriving DecidableEq, Repr

/-- The lines that reads serve, and what the read after them meets. -/
structure Feed where
  lines : List (List Char)
  ending : Ending
  deriving DecidableEq, Repr

namespace Feed

/-- The lines of a text stream. -/
def ofText (text : List Char) : Feed := ⟨Text.feedLines text, .endOfInput⟩

/-- The lines of a text stream that is interrupted where it would end. -/
def interrupted (text : List Char) : Feed := ⟨Text.feedLines text, .interrupt⟩

/-- A text without a carriage return at its very end: a line feed may yet follow it. -/
def withoutPending (text : List Char) : List Char :=
  if text.getLast? = some '\r' then text.dropLast else text

/-- Whether a line has its ending. -/
def isComplete (line : List Char) : Bool := line.getLast? == some '\n'

/-- Whether the end of the stream cuts off the bytes from a fault on: a sequence that more bytes
could complete, or the first two bytes of a surrogate. -/
def isCutOff (fault : Text.Utf8.Fault) (bytes : List UInt8) : Bool :=
  fault.flaw == .truncated ||
    (match bytes with
    | [first, second] => first.toNat == 0xed && 0xa0 ≤ second.toNat && second.toNat ≤ 0xbf
    | _ => false)

/-- The lines of a byte stream.  An ill-formed range fails the first read, except one that the end
of the stream cuts off: it is held back, the complete lines before it are served, and the read
that reaches it fails, with a place counted from the bytes held back. -/
def ofBytes (bytes : List UInt8) : Feed :=
  match Text.Utf8.decode bytes with
  | .ok text => ofText (Text.unifyBreaks text)
  | .error fault =>
    if isCutOff fault (bytes.drop fault.offset) then
      let text := Text.Utf8.decodeLossy (bytes.take fault.offset)
      let lines := Text.feedLines (Text.unifyBreaks (withoutPending text))
      ⟨lines.filter isComplete, .undecodable { fault with offset := 0 }⟩
    else ⟨[], .undecodable fault⟩

/-- The lines of a byte stream, with U+FFFD for every ill-formed range. -/
def ofBytesLossy (bytes : List UInt8) : Feed :=
  ofText (Text.unifyBreaks (Text.Utf8.decodeLossy bytes))

end Feed

end Lexline
