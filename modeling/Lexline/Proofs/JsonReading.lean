import Lexline.Datum.Basic
import Lexline.Proofs.Encoding
import Lexline.Proofs.Escapes
import Lexline.Text.Character
import Lexline.Text.Escape

/-!
# Reading JSON

A reader of JSON texts, and that it undoes the writing of strings, numbers and flat objects.

* `Json.character`, `Json.string` — strings, with surrogate pairs joined, and `Json.string_encode`
  their round trip.
* `Json.number` — numbers, and `Json.number_numeral` the round trip of integers.
* `Json.items`, `Json.field`, `Json.value` — lists, objects and all other values.
* `Json.read?` — the value that a whole text denotes.
* `Json.read?_object` — **an object of texts and integers is read back.**
-/

namespace Lexline.Json

open Text

/-! ## Strings -/

/-- The escapes by one character. -/
def shortEscapes : List (Char × Char) :=
  [('"', '"'), ('\\', '\\'), ('/', '/'), ('b', '\x08'), ('f', '\x0c'), ('n', '\n'), ('r', '\r'),
   ('t', '\t')]

/-- The first units of surrogate pairs. -/
def isHigh (unit : Nat) : Bool := 0xd800 ≤ unit && unit < 0xdc00

/-- The second units of surrogate pairs. -/
def isLow (unit : Nat) : Bool := 0xdc00 ≤ unit && unit < 0xe000

/-- The character of an escaped unit, or of two that form a surrogate pair.  The first unit stands
behind its mark. -/
def escapedUnits (text : List Char) : Option (Char × List Char) :=
  match hexAt? 4 text with
  | none => none
  | some (unit, rest) =>
    if isHigh unit then
      match rest with
      | '\\' :: 'u' :: more =>
        match hexAt? 4 more with
        | none => none
        | some (low, last) =>
          if isLow low then
            some (Char.ofNat (0x10000 + (unit - 0xd800) * 0x400 + (low - 0xdc00)), last)
          else none
      | _ => none
    else if isLow unit then none
    else some (Char.ofNat unit, rest)

/-- One character of a string, or its escape. -/
def character : Reader Char
  | '\\' :: 'u' :: rest => escapedUnits rest
  | '\\' :: c :: rest => (shortEscapes.lookup c).map (fun x => (x, rest))
  | c :: rest => if c = '\\' ∨ c.toNat < 32 then none else some (c, rest)
  | [] => none

/-- A string with its quotes. -/
def string : Reader String
  | '"' :: rest => (readUntil '"' character rest).map (fun (s, more) => (String.ofList s, more))
  | _ => none

/-! ## Numbers -/

/-- The digits behind a decimal point, if there is one. -/
def fraction : Reader (List Char)
  | '.' :: rest =>
    let run := rest.takeWhile isAsciiDigit
    if run = [] then none else some (run, rest.dropWhile isAsciiDigit)
  | text => some ([], text)

/-- The sign in front of an exponent: whether it is negative. -/
def sign (text : List Char) : Bool × List Char :=
  match text with
  | '-' :: rest => (true, rest)
  | '+' :: rest => (false, rest)
  | _ => (false, text)

/-- The exponent, if there is one. -/
def exponent : Reader (Option Int)
  | [] => some (none, [])
  | c :: rest =>
    if c = 'e' ∨ c = 'E' then
      let (negative, unsigned) := sign rest
      let run := unsigned.takeWhile isAsciiDigit
      let size : Int := decimalValue run
      if run = [] then none
      else some (some (if negative then -size else size), unsigned.dropWhile isAsciiDigit)
    else some (none, c :: rest)

/-- A number without its sign: an integer, unless it has a fraction or an exponent.  A zero stands
in front of no other digit. -/
def unsigned (negative : Bool) : Reader Datum := fun text =>
  let whole := text.takeWhile isAsciiDigit
  if whole = [] ∨ (whole.head? = some '0' ∧ whole ≠ ['0']) then none
  else
    match fraction (text.dropWhile isAsciiDigit) with
    | none => none
    | some (decimals, rest) =>
      match exponent rest with
      | none => none
      | some (power, last) =>
        if decimals = [] ∧ power = none then
          let size : Int := decimalValue whole
          some (.integer (if negative then -size else size), last)
        else
          some (.float (Binary64.ofDecimal negative (decimalValue (whole ++ decimals))
            (power.getD 0 - decimals.length)), last)

/-- A number. -/
def number : Reader Datum
  | '-' :: rest => unsigned true rest
  | text => unsigned false text

/-! ## Values -/

/-- The characters that may stand between the parts of a text. -/
def isBlank (c : Char) : Bool := c == ' ' || c == '\t' || c == '\n' || c == '\r'

/-- A text without the blanks at its start. -/
def skip (text : List Char) : List Char := text.dropWhile isBlank

theorem length_skip_le (text : List Char) : (skip text).length ≤ text.length :=
  (List.dropWhile_suffix isBlank).length_le

/-- One item and more, with commas between them, up to a closing mark. -/
def someItems {α : Type} (close : Char) (one : Reader α) (text : List Char) :
    Option (List α × List Char) :=
  match one text with
  | none => none
  | some (x, more) =>
    match skip more with
    | [] => none
    | c :: rest =>
      if c = close then some ([x], rest)
      else if _h : c = ',' ∧ rest.length < text.length then
        match someItems close one (skip rest) with
        | none => none
        | some (xs, last) => some (x :: xs, last)
      else none
termination_by text.length
decreasing_by exact Nat.lt_of_le_of_lt (length_skip_le rest) _h.2

/-- Items up to a closing mark, behind the opening one. -/
def items {α : Type} (close : Char) (one : Reader α) (text : List Char) :
    Option (List α × List Char) :=
  match skip text with
  | [] => none
  | c :: rest => if c = close then some ([], rest) else someItems close one (c :: rest)

/-- A field of an object. -/
def field (one : Reader Datum) : Reader (String × Datum) := fun text =>
  match string text with
  | none => none
  | some (key, more) =>
    match skip more with
    | ':' :: rest => (one (skip rest)).map (fun (x, last) => ((key, x), last))
    | _ => none

/-- The values that are words. -/
def words : List (String × Datum) :=
  [("null", .null), ("true", .boolean true), ("false", .boolean false)]

/-- A value with at most so many values around each other. -/
def value : Nat → Reader Datum
  | 0, _ => none
  | depth + 1, text =>
    match text with
    | '"' :: _ => (string text).map (fun (s, rest) => (.text s, rest))
    | '{' :: rest =>
      (items '}' (field (value depth)) rest).map (fun (fields, last) => (.table fields, last))
    | '[' :: rest => (items ']' (value depth) rest).map (fun (xs, last) => (.list xs, last))
    | _ =>
      match words.find? (fun word => word.1.toList.isPrefixOf text) with
      | some (word, x) => some (x, text.drop word.length)
      | none => number text

/-- The value that a whole text denotes.  Its characters bound how deep values stand in it. -/
def read? (text : List Char) : Option Datum :=
  match value text.length (skip text) with
  | some (x, rest) => if skip rest = [] then some x else none
  | none => none

/-! ## Strings are read back -/

theorem character_plain {c : Char} (hc : c ≠ '\\') (hlow : 32 ≤ c.toNat) (rest : List Char) :
    character (c :: rest) = some (c, rest) := by
  have hnot : ¬ (c = '\\' ∨ c.toNat < 32) := by
    rintro (h | h)
    · exact hc h
    · omega
  unfold character
  split <;> simp_all

theorem character_escapeUnit (unit : Nat) (rest : List Char) :
    character (JsonText.escapeUnit unit ++ rest) = escapedUnits (hex 4 unit ++ rest) := rfl

/-- A character below U+10000 is its own unit. -/
theorem escapedUnits_single {c : Char} (h : c.toNat < 0x10000) (rest : List Char) :
    escapedUnits (hex 4 c.toNat ++ rest) = some (c, rest) := by
  have hscalar := Utf8.toNat_cases c
  have hhigh : isHigh c.toNat = false := by
    simp only [isHigh, Bool.and_eq_false_iff, decide_eq_false_iff_not]
    omega
  have hlow : isLow c.toNat = false := by
    simp only [isLow, Bool.and_eq_false_iff, decide_eq_false_iff_not]
    omega
  unfold escapedUnits
  simp [hexAt?_hex 4 h, hhigh, hlow]

/-- The two units of any other character are joined again. -/
theorem escapedUnits_pair {c : Char} (h : 0x10000 ≤ c.toNat) (rest : List Char) :
    escapedUnits (hex 4 (0xd800 + (c.toNat - 0x10000) / 0x400) ++
      (JsonText.escapeUnit (0xdc00 + (c.toNat - 0x10000) % 0x400) ++ rest)) = some (c, rest) := by
  have hscalar := Utf8.toNat_cases c
  obtain ⟨high, hhigh⟩ : ∃ high, (c.toNat - 0x10000) / 0x400 = high := ⟨_, rfl⟩
  obtain ⟨low, hlow⟩ : ∃ low, (c.toNat - 0x10000) % 0x400 = low := ⟨_, rfl⟩
  have hjoin : 0x10000 + (0xd800 + high - 0xd800) * 0x400 + (0xdc00 + low - 0xdc00) = c.toNat := by
    omega
  have hishigh : isHigh (0xd800 + high) = true := by
    simp only [isHigh, Bool.and_eq_true, decide_eq_true_eq]
    omega
  have hislow : isLow (0xdc00 + low) = true := by
    simp only [isLow, Bool.and_eq_true, decide_eq_true_eq]
    omega
  have hwide : Nat.pow 16 4 = 0x10000 := rfl
  have hfirst :
      hexAt? 4 (hex 4 (0xd800 + high) ++ ('\\' :: 'u' :: (hex 4 (0xdc00 + low) ++ rest))) =
        some (0xd800 + high, '\\' :: 'u' :: (hex 4 (0xdc00 + low) ++ rest)) :=
    hexAt?_hex 4 (by omega) _
  have hsecond : hexAt? 4 (hex 4 (0xdc00 + low) ++ rest) = some (0xdc00 + low, rest) :=
    hexAt?_hex 4 (by omega) _
  rw [hhigh, hlow, JsonText.escapeUnit, List.cons_append, List.cons_append]
  simp only [escapedUnits, hfirst, hishigh, if_true, hsecond, hislow, hjoin, Char.ofNat_toNat]

/-- **Each character is read back**, as itself or from its escape. -/
theorem character_escape (c : Char) (rest : List Char) :
    character (JsonText.escape c ++ rest) = some (c, rest) := by
  unfold JsonText.escape
  iterate 7
    split
    · rename_i h
      rw [h]
      rfl
  split
  · rename_i hslash _ _ _ _ _ hshown
    exact character_plain hslash hshown.1 rest
  · unfold JsonText.units
    simp only
    split
    · rename_i hsmall
      rw [List.flatMap_singleton, character_escapeUnit, escapedUnits_single hsmall]
    · rename_i hlarge
      rw [List.flatMap_cons, List.flatMap_singleton, List.append_assoc, character_escapeUnit,
        escapedUnits_pair (by omega)]

/-- What is written for a character does not start with a quote. -/
theorem escape_head (c : Char) : ∃ x tail, JsonText.escape c = x :: tail ∧ x ≠ '"' := by
  unfold JsonText.escape
  split
  · exact ⟨_, _, rfl, by decide⟩
  · rename_i hquote
    iterate 6
      split
      · exact ⟨_, _, rfl, by decide⟩
    split
    · exact ⟨_, _, rfl, hquote⟩
    · unfold JsonText.units
      simp only
      split
      all_goals exact ⟨_, _, rfl, by decide⟩

/-- **A string is read back**, whatever follows it. -/
theorem string_encode (s : String) (rest : List Char) :
    string (JsonText.encode s.toList ++ rest) = some (s, rest) := by
  have hread := readUntil_flatMap s.toList (fun c _ => character_escape c)
    (fun c _ => escape_head c) rest
  have hshape : JsonText.encode s.toList ++ rest =
      '"' :: (s.toList.flatMap JsonText.escape ++ '"' :: rest) := by
    simp [JsonText.encode]
  rw [hshape, string, hread]
  simp

/-! ## Integers are read back -/

/-- `Stops rest`: no number goes on with `rest`. -/
def Stops (rest : List Char) : Prop :=
  ∀ c ∈ rest.head?, isAsciiDigit c = false ∧ c ≠ '.' ∧ c ≠ 'e' ∧ c ≠ 'E'

theorem isAsciiDigit_of_mem_digits {n : Nat} {c : Char} (h : c ∈ digits n) :
    isAsciiDigit c = true := by
  have hle : '0' ≤ c ∧ c ≤ '9' := toNat_of_mem_digits h
  simp [isAsciiDigit, hle]

theorem digits_head (n : Nat) : ∃ c tail, digits n = c :: tail ∧ isAsciiDigit c = true := by
  obtain ⟨c, tail, hdigits⟩ := List.exists_cons_of_ne_nil (Nat.toDigits_ne_nil (n := n) (b := 10))
  have hmem : c ∈ Nat.toDigits 10 n := by simp [hdigits]
  exact ⟨c, tail, hdigits, isAsciiDigit_of_mem_digits hmem⟩

/-- Only the numeral of zero starts with a zero. -/
theorem digits_head_zero (n : Nat) (h : (digits n).head? = some '0') : n = 0 := by
  induction n using Nat.strongRecOn with
  | ind n ih =>
    unfold digits at h ih
    rw [Nat.toDigits_eq_if (by decide)] at h
    split at h
    · simpa using h
    · obtain ⟨c, tail, hfront⟩ := List.exists_cons_of_ne_nil (Nat.toDigits_ne_nil (n := n / 10))
      have hzero := ih (n / 10) (by omega) (by rw [hfront] at h ⊢; exact h)
      omega

theorem fraction_of_stops {rest : List Char} (h : Stops rest) :
    fraction rest = some ([], rest) := by
  unfold fraction
  split
  · exact absurd rfl (h '.' rfl).2.1
  · rfl

theorem exponent_of_stops {rest : List Char} (h : Stops rest) :
    exponent rest = some (none, rest) := by
  cases rest with
  | nil => rfl
  | cons c rest =>
    obtain ⟨_, _, he, hE⟩ := h c rfl
    simp [exponent, he, hE]

theorem unsigned_digits (negative : Bool) (n : Nat) {rest : List Char} (h : Stops rest) :
    unsigned negative (digits n ++ rest) =
      some (.integer (if negative then -(n : Int) else n), rest) := by
  have hrun : ∀ c ∈ digits n, isAsciiDigit c = true := fun c hc => isAsciiDigit_of_mem_digits hc
  obtain ⟨htake, hdrop⟩ := takeWhile_run hrun (fun c hc => (h c hc).1)
  have hvalue : decimalValue (digits n) = n := Nat.ofDigitChars_toDigits (by decide) (by decide)
  have hform : ¬ (digits n = [] ∨ ((digits n).head? = some '0' ∧ digits n ≠ ['0'])) := by
    rintro (hnil | ⟨hzero, hne⟩)
    · exact Nat.toDigits_ne_nil hnil
    · rw [digits_head_zero n hzero] at hne
      exact hne rfl
  simp only [unsigned, htake, hdrop, if_neg hform, fraction_of_stops h, exponent_of_stops h,
    and_self, if_true, hvalue]

/-- **An integer is read back**, if no number goes on with what follows it. -/
theorem number_numeral (n : Int) {rest : List Char} (h : Stops rest) :
    number (numeral n ++ rest) = some (.integer n, rest) := by
  cases n with
  | negSucc n =>
    show unsigned true (digits (n + 1) ++ rest) = _
    rw [unsigned_digits true (n + 1) h]
    rfl
  | ofNat n =>
    obtain ⟨c, tail, hdigits, hc⟩ := digits_head n
    have hread := unsigned_digits false n h
    show number (digits n ++ rest) = _
    unfold number
    split
    · -- a digit is no minus sign
      rename_i heq
      rw [hdigits] at heq
      obtain ⟨rfl, _⟩ := List.cons.inj heq
      exact absurd hc (by decide)
    · exact hread

/-! ## Objects are read back -/

/-- A value of a flat object: a text or an integer. -/
inductive Scalar where
  | text (s : String)
  | integer (n : Int)
  deriving DecidableEq, Repr

/-- How a text or an integer is written. -/
def Scalar.write : Scalar → List Char
  | text s => JsonText.encode s.toList
  | integer n => numeral n

/-- What a text or an integer is read as. -/
def Scalar.datum : Scalar → Datum
  | text s => .text s
  | integer n => .integer n

/-- How a field of an object is written. -/
def writeField (f : String × Scalar) : List Char :=
  JsonText.encode f.1.toList ++ ':' :: ' ' :: f.2.write

/-- How a flat object with a first field and further ones is written. -/
def writeObject (f : String × Scalar) (fs : List (String × Scalar)) : List Char :=
  '{' :: (writeField f ++ (fs.flatMap (fun g => ',' :: ' ' :: writeField g) ++ ['}']))

theorem skip_of_head {c : Char} (hc : isBlank c = false) (rest : List Char) :
    skip (c :: rest) = c :: rest := by
  simp [skip, hc]

/-- **Items are read back**, each in front of a comma or of the closing mark. -/
theorem someItems_flatMap {α β : Type} {close : Char} {one : Reader α} {write : β → List Char}
    {val : β → α} (hclose : close ≠ ',' ∧ isBlank close = false)
    (hone : ∀ y rest, (∀ c ∈ rest.head?, c = ',' ∨ c = close) →
      one (write y ++ rest) = some (val y, rest))
    (hhead : ∀ y, ∃ c tail, write y = c :: tail ∧ isBlank c = false)
    (x : β) (ys : List β) (rest : List Char) :
    someItems close one
        (write x ++ (ys.flatMap (fun y => ',' :: ' ' :: write y) ++ close :: rest)) =
      some (val x :: ys.map val, rest) := by
  induction ys generalizing x with
  | nil =>
    have hread := hone x (close :: rest) (by simp)
    rw [List.flatMap_nil, List.nil_append, someItems, hread]
    simp [skip_of_head hclose.2]
  | cons y ys ih =>
    obtain ⟨more, hmore⟩ : ∃ more,
        write y ++ (ys.flatMap (fun y => ',' :: ' ' :: write y) ++ close :: rest) = more := ⟨_, rfl⟩
    have hshape : (y :: ys).flatMap (fun y => ',' :: ' ' :: write y) ++ close :: rest =
        ',' :: ' ' :: more := by
      rw [List.flatMap_cons, List.append_assoc, ← hmore]
      rfl
    have hread := hone x (',' :: ' ' :: more) (by simp)
    have hshorter : (' ' :: more).length < (write x ++ ',' :: ' ' :: more).length := by
      simp only [List.length_append, List.length_cons]
      omega
    have hnext : skip (' ' :: more) = more := by
      obtain ⟨c, tail, hwrite, hc⟩ := hhead y
      rw [← hmore, hwrite]
      exact skip_of_head hc _
    have hcomma : skip (',' :: ' ' :: more) = ',' :: ' ' :: more := skip_of_head (by decide) _
    have hrest := ih y
    rw [hmore] at hrest
    rw [hshape, someItems, hread]
    simp only [hcomma, if_neg hclose.1.symm, true_and, dif_pos hshorter, hnext, hrest,
      List.map_cons]

/-- The characters at which a number may start. -/
def opensNumber (c : Char) : Bool := isAsciiDigit c || c == '-'

theorem numeral_head (n : Int) : ∃ c tail, numeral n = c :: tail ∧ opensNumber c = true := by
  cases n with
  | negSucc n => exact ⟨'-', _, rfl, by decide⟩
  | ofNat n =>
    obtain ⟨c, tail, hdigits, hc⟩ := digits_head n
    exact ⟨c, tail, hdigits, by simp [opensNumber, hc]⟩

theorem ne_of_opensNumber {c d : Char} (hc : opensNumber c = true) (hd : opensNumber d = false) :
    c ≠ d := by
  rintro rfl
  rw [hd] at hc
  cases hc

theorem isBlank_of_opensNumber {c : Char} (h : opensNumber c = true) : isBlank c = false := by
  have hne : ∀ d, opensNumber d = false → c ≠ d := fun d => ne_of_opensNumber h
  simp [isBlank, hne ' ' (by decide), hne '\t' (by decide), hne '\n' (by decide),
    hne '\r' (by decide)]

theorem Scalar.write_head (x : Scalar) : ∃ c tail, x.write = c :: tail ∧ isBlank c = false := by
  cases x with
  | text s => exact ⟨'"', _, rfl, by decide⟩
  | integer n =>
    obtain ⟨c, tail, hn, hc⟩ := numeral_head n
    exact ⟨c, tail, hn, isBlank_of_opensNumber hc⟩

/-- What starts like a number is read as one. -/
theorem value_of_opensNumber (depth : Nat) {c : Char} (hc : opensNumber c = true)
    (rest : List Char) : value (depth + 1) (c :: rest) = number (c :: rest) := by
  have hne : ∀ d, opensNumber d = false → c ≠ d := fun d => ne_of_opensNumber hc
  have hwords : words.find? (fun word => word.1.toList.isPrefixOf (c :: rest)) = none := by
    rw [List.find?_eq_none]
    intro word hword
    have hfirst : ∃ d tail, word.1.toList = d :: tail ∧ opensNumber d = false := by
      simp only [words, List.mem_cons, List.not_mem_nil, or_false] at hword
      rcases hword with rfl | rfl | rfl <;> exact ⟨_, _, rfl, by decide⟩
    obtain ⟨d, tail, hspelled, hd⟩ := hfirst
    simp [hspelled, (hne d hd).symm]
  rw [value]
  · simp only [hwords]
  · intro _ h
    exact hne '"' (by decide) (List.cons.inj h).1
  · intro _ h
    exact hne '{' (by decide) (List.cons.inj h).1
  · intro _ h
    exact hne '[' (by decide) (List.cons.inj h).1

/-- A text or an integer is read back as a value. -/
theorem value_write (depth : Nat) (x : Scalar) {rest : List Char} (h : Stops rest) :
    value (depth + 1) (x.write ++ rest) = some (x.datum, rest) := by
  cases x with
  | text s =>
    have hread := string_encode s rest
    show (string (JsonText.encode s.toList ++ rest)).map _ = _
    rw [hread]
    rfl
  | integer n =>
    have hread := number_numeral n h
    obtain ⟨c, tail, hn, hc⟩ := numeral_head n
    show value (depth + 1) (numeral n ++ rest) = _
    rw [hn, List.cons_append] at hread ⊢
    rw [value_of_opensNumber depth hc, hread]
    rfl

theorem field_writeField (depth : Nat) (f : String × Scalar) {rest : List Char} (h : Stops rest) :
    field (value (depth + 1)) (writeField f ++ rest) = some ((f.1, f.2.datum), rest) := by
  have hkey := string_encode f.1 (':' :: ' ' :: (f.2.write ++ rest))
  have hcolon : skip (':' :: ' ' :: (f.2.write ++ rest)) = ':' :: ' ' :: (f.2.write ++ rest) :=
    skip_of_head (by decide) _
  have hvalue : skip (' ' :: (f.2.write ++ rest)) = f.2.write ++ rest := by
    obtain ⟨c, tail, hwrite, hc⟩ := f.2.write_head
    rw [hwrite]
    exact skip_of_head hc _
  unfold field writeField
  rw [List.append_assoc, List.cons_append, List.cons_append, hkey]
  simp only [hcolon, hvalue, value_write depth f.2 h]
  rfl

/-- **An object of texts and integers is read back**, with blanks behind it. -/
theorem read?_object (f : String × Scalar) (fs : List (String × Scalar)) {tail : List Char}
    (htail : skip tail = []) :
    read? (writeObject f fs ++ tail) =
      some (.table ((f :: fs).map (fun g => (g.1, g.2.datum)))) := by
  have hstops : ∀ rest : List Char, (∀ c ∈ rest.head?, c = ',' ∨ c = '}') → Stops rest := by
    intro rest hrest c hc
    rcases hrest c hc with rfl | rfl <;> decide
  have hfields : ∀ depth, someItems '}' (field (value (depth + 1)))
      (writeField f ++ (fs.flatMap (fun g => ',' :: ' ' :: writeField g) ++ '}' :: tail)) =
        some ((f.1, f.2.datum) :: fs.map (fun g => (g.1, g.2.datum)), tail) := fun depth =>
    someItems_flatMap (by decide) (fun g rest hrest => field_writeField depth g (hstops rest hrest))
      (fun g => ⟨'"', _, rfl, by decide⟩) f fs tail
  obtain ⟨body, hbody⟩ : ∃ body,
      writeField f ++ (fs.flatMap (fun g => ',' :: ' ' :: writeField g) ++ '}' :: tail) =
        '"' :: body := ⟨_, rfl⟩
  have hshape : writeObject f fs ++ tail = '{' :: '"' :: body := by
    rw [← hbody]
    simp [writeObject]
  have hskip : skip ('{' :: '"' :: body) = '{' :: '"' :: body := skip_of_head (by decide) _
  have hopen : skip ('"' :: body) = '"' :: body := skip_of_head (by decide) _
  rw [hbody] at hfields
  have hvalue : value (body.length + 2) ('{' :: '"' :: body) =
      some (.table ((f.1, f.2.datum) :: fs.map (fun g => (g.1, g.2.datum))), tail) := by
    show (items '}' (field (value (body.length + 1))) ('"' :: body)).map _ = _
    simp only [items, hopen, if_neg (show '"' ≠ '}' by decide), hfields body.length]
    rfl
  unfold read?
  rw [hshape, hskip]
  simp only [List.length_cons, hvalue, htail, if_true]
  rfl

example : read? "\x7b\"a\": \"\\ud83d\\ude00\", \"b\": -10\x7d\n".toList =
    some (.table [("a", .text "😀"), ("b", .integer (-10))]) := by cbv

end Lexline.Json
