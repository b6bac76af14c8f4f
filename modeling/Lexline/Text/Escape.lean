import Lexline.Text.Character
import Lexline.Text.Numeral
import Lexline.Text.Utf8

/-!
# Escaped texts

Three ways to write a text with fewer characters than it may have.

* `Quoted.encode`, `quote` — a text between two quote marks, on one line, that shows every character
  or escapes it.  The mark is an apostrophe, unless the text has an apostrophe and no double quote.
* `JsonText.encode` — a JSON string in ASCII: seven short escapes, and four hexadecimal digits for
  each other UTF-16 unit outside the range from the space to the tilde.
* `Percent.decode` — the text that a percent-encoded text denotes.  A percent sign and two
  hexadecimal digits stand for a byte.  Each longest run of ASCII characters is read as bytes of its
  own, decoded as UTF-8 with U+FFFD for what is ill-formed; other characters stand for themselves,
  and so does a percent sign without two digits.
-/

namespace Lexline.Text

/-! ## Quoted texts -/

namespace Quoted

/-- The apostrophe. -/
abbrev single : Char := '\x27'

/-- The double quote. -/
abbrev double : Char := '\x22'

/-- The quote mark for a text: double only where that saves escaping apostrophes. -/
def mark (text : List Char) : Char :=
  if single ∈ text ∧ double ∉ text then double else single

/-- The escape of a character that is not printable, by the size of its code point. -/
def escapeCode (n : Nat) : List Char :=
  if n < 0x100 then '\\' :: 'x' :: hex 2 n
  else if n < 0x10000 then '\\' :: 'u' :: hex 4 n
  else '\\' :: 'U' :: hex 8 n

/-- How one character is written between marks `m`. -/
def escape (m c : Char) : List Char :=
  if c = '\\' ∨ c = m then ['\\', c]
  else if c = '\t' then ['\\', 't']
  else if c = '\n' then ['\\', 'n']
  else if c = '\r' then ['\\', 'r']
  else if isPrintable c then [c]
  else escapeCode c.toNat

/-- The quoted form of a text. -/
def encode (text : List Char) : List Char :=
  let m := mark text
  m :: (text.flatMap (escape m) ++ [m])

end Quoted

/-- The quoted form of a string. -/
def quote (s : String) : String := String.ofList (Quoted.encode s.toList)

/-! ## JSON strings -/

namespace JsonText

/-- The UTF-16 units of a character: one, or a surrogate pair above U+FFFF. -/
def units (c : Char) : List Nat :=
  let n := c.toNat
  if n < 0x10000 then [n]
  else [0xd800 + (n - 0x10000) / 0x400, 0xdc00 + (n - 0x10000) % 0x400]

/-- The escape of one UTF-16 unit. -/
def escapeUnit (unit : Nat) : List Char := '\\' :: 'u' :: hex 4 unit

/-- How one character is written inside a JSON string. -/
def escape (c : Char) : List Char :=
  if c = '"' then ['\\', '"']
  else if c = '\\' then ['\\', '\\']
  else if c = '\n' then ['\\', 'n']
  else if c = '\r' then ['\\', 'r']
  else if c = '\t' then ['\\', 't']
  else if c = '\x0c' then ['\\', 'f']
  else if c = '\x08' then ['\\', 'b']
  else if ' ' ≤ c ∧ c ≤ '~' then [c]
  else (units c).flatMap escapeUnit

/-- The JSON string of a text, with its quotes. -/
def encode (text : List Char) : List Char := '"' :: (text.flatMap escape ++ ['"'])

end JsonText

/-! ## Percent-encoded texts -/

namespace Percent

/-- The bytes that a run of ASCII characters denotes. -/
def bytes : List Char → List UInt8
  | '%' :: a :: b :: rest =>
    match hexValue? a, hexValue? b with
    | some x, some y => (16 * x + y).toUInt8 :: bytes rest
    | _, _ => '%'.toNat.toUInt8 :: bytes (a :: b :: rest)
  | c :: rest => c.toNat.toUInt8 :: bytes rest
  | [] => []
termination_by text => text.length

/-- The text that a percent-encoded text denotes. `run` holds the ASCII characters just read,
the last one first. -/
def decodeFrom (run : List Char) : List Char → List Char
  | [] => Utf8.decodeLossy (bytes run.reverse)
  | c :: rest =>
    if isAscii c then decodeFrom (c :: run) rest
    else Utf8.decodeLossy (bytes run.reverse) ++ c :: decodeFrom [] rest

/-- The text that a percent-encoded text denotes. -/
def decode (text : List Char) : List Char := decodeFrom [] text

end Percent

end Lexline.Text
