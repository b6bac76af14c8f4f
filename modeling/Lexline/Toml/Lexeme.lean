import Lexline.Text.Character
import Lexline.Text.Numeral
import Lexline.Toml.Fault

/-!
# Texts, comments and keys of a configuration

Every reader looks at the start of a text and returns what it read and the number of characters
it took.

* `blankLength`, `commentLength`, `fillerLength` — what may be skipped.
* `basicText`, `literalText` — a quoted text with escapes, and one without.
* `key` — a dotted key.
-/

namespace Lexline.Toml

/-- What a reader gives: a value and the number of characters taken, or a fault. -/
abbrev Reading (α : Type) := Except Fault (α × Nat)

/-! ## Blanks and comments -/

/-- A space or a tab. -/
def isBlank (c : Char) : Bool := c == ' ' || c == '\t'

/-- A space, a tab or a line feed. -/
def isFiller (c : Char) : Bool := isBlank c || c == '\n'

/-- A control character other than the tab. -/
def isControl (c : Char) : Bool := (c.toNat < 32 && c != '\t') || c.toNat == 127

/-- The number of blanks at the start of a text. -/
def blankLength (text : List Char) : Nat := (text.takeWhile isBlank).length

/-- The length of the comment at the start of a text, without the line feed after it; zero if
there is none. -/
def commentLength (text : List Char) : Except Fault Nat :=
  match text with
  | '#' :: rest =>
    let body := rest.takeWhile (· != '\n')
    match body.find? isControl with
    | none => .ok (body.length + 1)
    | some c => fail (.invalidCharacter c) (rest.dropWhile (fun c => !isControl c))
  | _ => .ok 0

/-- The length of the blanks, line feeds and comments at the start of a text. -/
def fillerLength (text : List Char) : Except Fault Nat :=
  let blank := (text.takeWhile isFiller).length
  match _h : text.drop blank with
  | '#' :: rest =>
    match commentLength ('#' :: rest) with
    | .error fault => .error fault
    | .ok comment =>
      match fillerLength (rest.drop (comment - 1)) with
      | .error fault => .error fault
      | .ok more => .ok (blank + 1 + (comment - 1) + more)
  | _ => .ok blank
termination_by text.length
decreasing_by
  have := congrArg List.length _h
  simp only [List.length_drop, List.length_cons] at this ⊢
  omega

/-! ## Texts with escapes -/

/-- The short escapes. -/
def shortEscapes : List (Char × Char) :=
  [('b', '\x08'), ('t', '\t'), ('n', '\n'), ('f', '\x0c'), ('r', '\r'), ('"', '"'), ('\\', '\\')]

/-- Whether a number is the code point of a character. -/
def isScalar (n : Nat) : Bool := n < 0xd800 || (0xe000 ≤ n && n < 0x110000)

/-- The character that the first `width` hexadecimal digits of a text denote. -/
def hexCharacter (width : Nat) (text : List Char) : Except Fault Char :=
  let digits := text.take width
  match Text.hexNumber? digits with
  | none => fail .invalidHex text
  | some n =>
    if digits.length ≠ width then fail .invalidHex text
    else if isScalar n then .ok (Char.ofNat n)
    else fail .notScalar (text.drop width)

/-- What a backslash stands for, given the text after it. -/
def escapeAt (text : List Char) : Reading (List Char) :=
  match text with
  | 'u' :: rest =>
    match hexCharacter 4 rest with
    | .error fault => .error fault
    | .ok c => .ok ([c], 5)
  | 'U' :: rest =>
    match hexCharacter 8 rest with
    | .error fault => .error fault
    | .ok c => .ok ([c], 9)
  | c :: rest =>
    match shortEscapes.lookup c with
    | some d => .ok ([d], 1)
    | none => fail .unescaped rest
  | [] => fail .unescaped []

/-- A backslash at the end of a line stands for nothing, and swallows the line feed and all
blanks and line feeds after it; blanks may stand before the line feed. -/
def continuationAt (text : List Char) : Reading (List Char) :=
  match text with
  | '\n' :: rest => .ok ([], 1 + (rest.takeWhile isFiller).length)
  | _ =>
    let blank := blankLength text
    match text.drop blank with
    | [] => .ok ([], blank)
    | '\n' :: rest => .ok ([], blank + 1 + (rest.takeWhile isFiller).length)
    | rest => fail .unescaped rest

/-- The escape after a backslash; only a text of several lines knows continuations. -/
def escape (multiline : Bool) (text : List Char) : Reading (List Char) :=
  if multiline && (text.head?.map isFiller).getD false then continuationAt text else escapeAt text

/-- The body of a text with escapes, up to and with its closing mark: one double quote, or three
in a text of several lines. -/
def basicBody (multiline : Bool) (text : List Char) : Reading (List Char) :=
  match text with
  | [] => fail .unterminated []
  | '"' :: rest =>
    if !multiline then .ok ([], 1)
    else if ['"', '"'].isPrefixOf rest then .ok ([], 3)
    else
      match basicBody multiline rest with
      | .error fault => .error fault
      | .ok (body, n) => .ok ('"' :: body, n + 1)
  | '\\' :: rest =>
    match escape multiline rest with
    | .error fault => .error fault
    | .ok (piece, taken) =>
      match basicBody multiline (rest.drop taken) with
      | .error fault => .error fault
      | .ok (body, n) => .ok (piece ++ body, 1 + taken + n)
  | c :: rest =>
    if isControl c && !(multiline && c == '\n') then fail (.illegalCharacter c) (c :: rest)
    else
      match basicBody multiline rest with
      | .error fault => .error fault
      | .ok (body, n) => .ok (c :: body, n + 1)
termination_by text.length

/-! ## Texts without escapes -/

/-- The part of a text before the first occurrence of `mark`. -/
def before? (mark : List Char) : List Char → Option (List Char)
  | [] => none
  | c :: rest =>
    if mark.isPrefixOf (c :: rest) then some [] else (before? mark rest).map (c :: ·)

/-- The body of a text without escapes, up to and with its closing mark. -/
def literalBody (mark : List Char) (legal : Char → Bool) (text : List Char) :
    Reading (List Char) :=
  match before? mark text with
  | none => fail (.expectedMark (String.ofList mark)) []
  | some body =>
    match body.find? (fun c => !legal c) with
    | none => .ok (body, body.length + mark.length)
    | some c => fail (.invalidCharacter c) (text.dropWhile legal)

/-! ## Opening marks -/

/-- The apostrophe. -/
abbrev tick : Char := Text.Quoted.single

/-- One or two more marks after the three that close a text of several lines belong to it. -/
def surplus (mark : Char) (text : List Char) : List Char := (text.take 2).takeWhile (· == mark)

/-- A text of several lines, given what stands after its three opening marks.  A line feed right
there does not count. -/
def multilineText (mark : Char) (body : List Char → Reading (List Char)) (text : List Char) :
    Reading (List Char) :=
  let skipped := if text.head? = some '\n' then 1 else 0
  match body (text.drop skipped) with
  | .error fault => .error fault
  | .ok (content, n) =>
    let extra := surplus mark (text.drop (skipped + n))
    .ok (content ++ extra, skipped + n + extra.length)

/-- A reading that starts `n` characters later. -/
def shift {α : Type} (n : Nat) : Reading α → Reading α
  | .error fault => .error fault
  | .ok (a, taken) => .ok (a, n + taken)

/-- A text on one line between double quotes. -/
def basicText (text : List Char) : Reading (List Char) := shift 1 (basicBody false (text.drop 1))

/-- A text on one line between apostrophes. -/
def literalText (text : List Char) : Reading (List Char) :=
  shift 1 (literalBody [tick] (fun c => !isControl c) (text.drop 1))

/-- A text between double quotes, on one line or, after three of them, on several. -/
def anyBasicText (text : List Char) : Reading (List Char) :=
  if ['"', '"', '"'].isPrefixOf text then
    shift 3 (multilineText '"' (basicBody true) (text.drop 3))
  else basicText text

/-- A text between apostrophes, on one line or, after three of them, on several. -/
def anyLiteralText (text : List Char) : Reading (List Char) :=
  if [tick, tick, tick].isPrefixOf text then
    let legal := fun c => !isControl c || c == '\n'
    shift 3 (multilineText tick (literalBody [tick, tick, tick] legal) (text.drop 3))
  else literalText text

/-! ## Keys -/

/-- The characters of a key without quotes. -/
def isBare (c : Char) : Bool :=
  Text.isAsciiLetter c || Text.isAsciiDigit c || c == '-' || c == '_'

/-- Whether a key can start with the character. -/
def startsKey (c : Char) : Bool := isBare c || c == '"' || c == tick

/-- One part of a key. -/
def keyPart (text : List Char) : Reading String :=
  let named : Reading (List Char) → Reading String
    | .error fault => .error fault
    | .ok (name, n) => .ok (String.ofList name, n)
  match text with
  | [] => fail .invalidKeyPart []
  | c :: _ =>
    if isBare c then
      let name := text.takeWhile isBare
      .ok (String.ofList name, name.length)
    else if c = tick then named (literalText text)
    else if c = '"' then named (basicText text)
    else fail .invalidKeyPart text

/-- A dotted key and the blanks after it. -/
def key (text : List Char) : Reading Key :=
  match keyPart text with
  | .error fault => .error fault
  | .ok (part, n) =>
    let taken := n + blankLength (text.drop n)
    match _h : text.drop taken with
    | '.' :: rest =>
      let blank := blankLength rest
      match key (rest.drop blank) with
      | .error fault => .error fault
      | .ok (parts, more) => .ok (part :: parts, taken + 1 + blank + more)
    | _ => .ok ([part], taken)
termination_by text.length
decreasing_by
  have := congrArg List.length _h
  simp only [List.length_drop, List.length_cons] at this ⊢
  omega

end Lexline.Toml
