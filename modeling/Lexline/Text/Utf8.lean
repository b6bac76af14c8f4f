import Lexline.Text.Numeral

/-!
# UTF-8

Bytes are cut into pieces, each a character or an ill-formed range: the start byte and the
continuation bytes that were still possible.

* `Utf8.pieces` — the pieces of a byte string.
* `Utf8.decode` — the text, or the place and the flaw of the first ill-formed range.
* `Utf8.decodeLossy` — the text, with U+FFFD for every ill-formed range.
* `Utf8.encode` — the bytes of a text.
-/

namespace Lexline.Text.Utf8

/-- Why a range of bytes is ill-formed. -/
inductive Flaw where
  | startByte
  | continuation
  | truncated
  deriving DecidableEq, Repr

/-- A character, or an ill-formed range of bytes. -/
inductive Piece where
  | scalar (c : Char)
  | flawed (bytes : List UInt8) (flaw : Flaw)
  deriving DecidableEq, Repr

/-- What a start byte announces: its own bits of the code point, the number of bytes to
follow, and the limits on the first of them. -/
structure Lead where
  bits : Nat
  count : Nat
  low : Nat
  high : Nat
  deriving DecidableEq, Repr

/-- The announcement of a start byte of two, three or four bytes.  The limits rule out
overlong forms, surrogates, and code points above U+10FFFF. -/
def lead? (byte : UInt8) : Option Lead :=
  let n := byte.toNat
  if n < 0xc2 then none
  else if n < 0xe0 then some ⟨n - 0xc0, 1, 0x80, 0xbf⟩
  else if n = 0xe0 then some ⟨0, 2, 0xa0, 0xbf⟩
  else if n = 0xed then some ⟨0xd, 2, 0x80, 0x9f⟩
  else if n < 0xf0 then some ⟨n - 0xe0, 2, 0x80, 0xbf⟩
  else if n = 0xf0 then some ⟨0, 3, 0x90, 0xbf⟩
  else if n < 0xf4 then some ⟨n - 0xf0, 3, 0x80, 0xbf⟩
  else if n = 0xf4 then some ⟨4, 3, 0x80, 0x8f⟩
  else none

/-- Reads `count` continuation bytes, the first of them between `low` and `high`.  `seen` holds
the bytes of the range so far, the last one first. -/
def follow (low high : Nat) (bits : Nat) (seen : List UInt8) :
    Nat → List UInt8 → Piece × List UInt8
  | 0, rest => (.scalar (Char.ofNat bits), rest)
  | _ + 1, [] => (.flawed seen.reverse .truncated, [])
  | count + 1, byte :: rest =>
    if low ≤ byte.toNat ∧ byte.toNat ≤ high then
      follow 0x80 0xbf (64 * bits + (byte.toNat - 0x80)) (byte :: seen) count rest
    else (.flawed seen.reverse .continuation, byte :: rest)

/-- The piece at the start of a byte string, and the bytes after it. -/
def first (byte : UInt8) (rest : List UInt8) : Piece × List UInt8 :=
  if byte.toNat < 0x80 then (.scalar (Char.ofNat byte.toNat), rest)
  else
    match lead? byte with
    | none => (.flawed [byte] .startByte, rest)
    | some lead => follow lead.low lead.high lead.bits [byte] lead.count rest

theorem follow_length_le (low high bits : Nat) (seen : List UInt8) (count : Nat)
    (bytes : List UInt8) : (follow low high bits seen count bytes).2.length ≤ bytes.length := by
  induction count generalizing low high bits seen bytes with
  | zero => simp [follow]
  | succ count ih =>
    cases bytes with
    | nil => simp [follow]
    | cons byte rest =>
      simp only [follow]
      split
      · exact Nat.le_succ_of_le (ih ..)
      · exact Nat.le_refl _

/-- No piece is empty. -/
theorem first_length_le (byte : UInt8) (rest : List UInt8) :
    (first byte rest).2.length ≤ rest.length := by
  unfold first
  split
  · exact Nat.le_refl _
  · split
    · exact Nat.le_refl _
    · exact follow_length_le ..

/-- The pieces of a byte string, in order. -/
def pieces : List UInt8 → List Piece
  | [] => []
  | byte :: rest => (first byte rest).1 :: pieces (first byte rest).2
termination_by bytes => bytes.length
decreasing_by exact Nat.lt_succ_of_le (first_length_le byte rest)

/-- The place of an ill-formed range: the offset of its first byte, and its bytes. -/
structure Fault where
  offset : Nat
  bytes : List UInt8
  flaw : Flaw
  deriving DecidableEq, Repr

/-- The text of a list of pieces that starts at a byte offset, or the first ill-formed range. -/
def assemble (offset : Nat) : List Piece → Except Fault (List Char)
  | [] => .ok []
  | .flawed bytes flaw :: _ => .error ⟨offset, bytes, flaw⟩
  | .scalar c :: rest =>
    match assemble (offset + c.utf8Size) rest with
    | .error fault => .error fault
    | .ok text => .ok (c :: text)

/-- The text of a byte string, if it is well-formed. -/
def decode (bytes : List UInt8) : Except Fault (List Char) := assemble 0 (pieces bytes)

/-- The replacement character stands for an ill-formed range. -/
def Piece.char : Piece → Char
  | .scalar c => c
  | .flawed _ _ => '\ufffd'

/-- The text of a byte string, with U+FFFD for every ill-formed range. -/
def decodeLossy (bytes : List UInt8) : List Char := (pieces bytes).map Piece.char

/-- The bytes of one character. -/
def encodeChar (c : Char) : List UInt8 :=
  let n := c.toNat
  if n < 0x80 then [n.toUInt8]
  else if n < 0x800 then [(0xc0 + n / 64).toUInt8, (0x80 + n % 64).toUInt8]
  else if n < 0x10000 then
    [(0xe0 + n / 4096).toUInt8, (0x80 + n / 64 % 64).toUInt8, (0x80 + n % 64).toUInt8]
  else
    [(0xf0 + n / 262144).toUInt8, (0x80 + n / 4096 % 64).toUInt8, (0x80 + n / 64 % 64).toUInt8,
     (0x80 + n % 64).toUInt8]

/-- The bytes of a text. -/
def encode (text : List Char) : List UInt8 := text.flatMap encodeChar

/-- The reason given for a flaw. -/
def Flaw.reason : Flaw → String
  | .startByte => "invalid start byte"
  | .continuation => "invalid continuation byte"
  | .truncated => "unexpected end of data"

/-- The report on an ill-formed range: a single byte is shown, a longer range is located. -/
def Fault.message (fault : Fault) : String :=
  let place : List Char := match fault.bytes with
    | [byte] =>
      "byte 0x".toList ++ hex 2 byte.toNat ++ " in position ".toList ++ digits fault.offset
    | bytes => "bytes in position ".toList ++ digits fault.offset ++ ['-'] ++
        digits (fault.offset + bytes.length - 1)
  "'utf-8' codec can't decode " ++ String.ofList place ++ ": " ++ fault.flaw.reason

end Lexline.Text.Utf8
