import Lexline.Cursor.Tokens

/-!
# Moves of a cursor

Everything that can be asked of a cursor, as data, so that sequences of requests can be written
down.

* `Move` — one request.
* `Reply` — what it gives.
* `Cursor.perform`, `Cursor.performAll` — carrying out one request, and several in order.
-/

namespace Lexline

/-- A request to a cursor. -/
inductive Move where
  | next
  | peek
  | read
  | skip
  | word
  | number
  | tokens
  | take (n : Nat)
  | tokenize
  deriving DecidableEq, Repr

/-- What a request gives. -/
inductive Reply where
  | nothing
  | character (c : Option Char)
  | run (text : List Char)
  | token (t : Token)
  | tokens (ts : List Token)
  deriving DecidableEq, Repr

namespace Cursor

/-- Carries out a request. -/
def perform (c : Cursor) : Move → Reply × Cursor
  | .next => (.token c.next.1, c.next.2)
  | .peek => (.character c.peek, c)
  | .read => (.nothing, c.read)
  | .skip => (.nothing, c.skipSpaces)
  | .word => (.run c.readWord.1, c.readWord.2)
  | .number => (.run c.readNumber.1, c.readNumber.2)
  | .tokens => (.tokens c.tokens.1, c.tokens.2)
  | .take n => (.tokens (c.take n).1, (c.take n).2)
  | .tokenize => (.tokens c.tokenize.1, c.tokenize.2)

/-- Carries out requests in order. -/
def performAll (c : Cursor) : List Move → List Reply × Cursor
  | [] => ([], c)
  | m :: rest =>
    let (reply, d) := c.perform m
    let (replies, last) := performAll d rest
    (reply :: replies, last)

end Cursor

end Lexline
