import Lexline.Proofs.Encoding
import Lexline.Proofs.Escapes
import Lexline.Proofs.Records
import Lexline.Proofs.RoundTrip

/-!
# Text records

A text record shows the kind of a token and its literal in quotes.  The mark around a literal and
the length of its escapes depend on the literal; still nothing of it is lost, and nothing in a
record can be taken for the end of a line.

* `Quoted.decode`, `Quoted.decode_encode` — quoted text is read back.
* `isBoundary`, `shownLines` — the characters that start a new line somewhere, and the lines of a
  text that end at any of them.
* `Quoted.encode_boundary` — quoted text stays on one line.
* `Record.read?`, `Record.read?_text` — a text record is read back.
* `text_records_faithful` — **text records show what equality of tokens looks at**, neither more nor
  less, one token to a line.
-/

namespace Lexline

namespace Text

/-! ## Reading quoted text -/

namespace Quoted

/-- The escapes by one character. -/
def shortEscapes : List (Char × Char) :=
  [('\\', '\\'), (single, single), (double, double), ('t', '\t'), ('n', '\n'), ('r', '\r')]

/-- The character whose code point is so many hexadecimal digits. -/
def hexCharacter (width : Nat) : Reader Char := fun text =>
  match hexAt? width text with
  | none => none
  | some (n, rest) => if n.isValidChar then some (Char.ofNat n, rest) else none

/-- One character of a quoted text, or its escape. -/
def character : Reader Char
  | '\\' :: 'x' :: rest => hexCharacter 2 rest
  | '\\' :: 'u' :: rest => hexCharacter 4 rest
  | '\\' :: 'U' :: rest => hexCharacter 8 rest
  | '\\' :: c :: rest => (shortEscapes.lookup c).map (fun x => (x, rest))
  | c :: rest => if c = '\\' then none else some (c, rest)
  | [] => none

/-- The text that a quoted text denotes. -/
def decode (text : List Char) : Option (List Char) :=
  match text with
  | [] => none
  | m :: rest =>
    if m = single ∨ m = double then
      match readUntil m character rest with
      | some (body, []) => some body
      | _ => none
    else none

theorem mark_cases (text : List Char) : mark text = single ∨ mark text = double := by
  unfold mark
  split
  · exact Or.inr rfl
  · exact Or.inl rfl

theorem hexCharacter_hex (width : Nat) {c : Char} (h : c.toNat < Nat.pow 16 width)
    (rest : List Char) : hexCharacter width (hex width c.toNat ++ rest) = some (c, rest) := by
  have hvalid : c.toNat.isValidChar := c.valid
  simp only [hexCharacter, hexAt?_hex width h, if_pos hvalid, Char.ofNat_toNat]

theorem character_escapeCode (c : Char) (rest : List Char) :
    character (escapeCode c.toNat ++ rest) = some (c, rest) := by
  unfold escapeCode
  split
  · rename_i hlt
    exact hexCharacter_hex 2 hlt rest
  · split
    · rename_i hlt
      exact hexCharacter_hex 4 hlt rest
    · refine hexCharacter_hex 8 ?_ rest
      have hscalar := Utf8.toNat_cases c
      have hwide : Nat.pow 16 8 = 0x100000000 := rfl
      omega

theorem character_plain {c : Char} (hc : c ≠ '\\') (rest : List Char) :
    character (c :: rest) = some (c, rest) := by
  unfold character
  split <;> simp_all

/-- **Each character is read back**, as itself or from its escape. -/
theorem character_escape {m : Char} (hm : m = single ∨ m = double) (c : Char) (rest : List Char) :
    character (escape m c ++ rest) = some (c, rest) := by
  unfold escape
  split
  · rename_i h
    rcases h with rfl | rfl
    · rfl
    · rcases hm with rfl | rfl <;> rfl
  · rename_i hplain
    iterate 3
      split
      · rename_i h
        rw [h]
        rfl
    split
    · exact character_plain (fun h => hplain (Or.inl h)) rest
    · exact character_escapeCode c rest

/-- What is written for a character does not start with the mark. -/
theorem escape_head {m : Char} (hm : m = single ∨ m = double) (c : Char) :
    ∃ x tail, escape m c = x :: tail ∧ x ≠ m := by
  have hslash : '\\' ≠ m := by rcases hm with rfl | rfl <;> decide
  unfold escape escapeCode
  split
  · exact ⟨_, _, rfl, hslash⟩
  · rename_i hplain
    iterate 3
      split
      · exact ⟨_, _, rfl, hslash⟩
    split
    · exact ⟨_, _, rfl, fun h => hplain (Or.inr h)⟩
    · repeat' split
      all_goals exact ⟨_, _, rfl, hslash⟩

/-- **Quoted text is read back.** -/
theorem decode_encode (text : List Char) : decode (encode text) = some text := by
  have hm := mark_cases text
  have hread : readUntil (mark text) character (text.flatMap (escape (mark text)) ++ [mark text]) =
      some (text, []) :=
    readUntil_flatMap text (fun c _ => character_escape hm c) (fun c _ => escape_head hm c) []
  unfold decode encode
  simp only [if_pos hm, hread]

end Quoted

/-! ## Lines as others see them -/

/-- The characters at which a new line starts for some reader of the output. -/
def boundaries : List Char :=
  ['\n', '\r', '\x0b', '\x0c', '\x1c', '\x1d', '\x1e', '\x85', '\u2028', '\u2029']

/-- Whether a character ends a line for some reader of the output. -/
def isBoundary (c : Char) : Bool := boundaries.contains c

/-- The lines of a text for a reader who starts a new one at every boundary; a carriage return and a
line feed are one. -/
def shownLines : List Char → List (List Char)
  | [] => []
  | '\r' :: '\n' :: rest => [] :: shownLines rest
  | c :: rest => if isBoundary c then [] :: shownLines rest else pushLine c (shownLines rest)

theorem isBoundary_of_isVisible {text : List Char} (h : IsVisible text) :
    ∀ c ∈ text, isBoundary c = false := by
  have hlow : boundaries.all (fun c => c.toNat < 32 || 126 < c.toNat) = true := by decide
  intro c hc
  obtain ⟨hge, hle⟩ := h c hc
  rw [← Bool.not_eq_true]
  intro hmem
  have hout := List.all_eq_true.1 hlow c (List.contains_iff_mem.1 hmem)
  simp only [Bool.or_eq_true, decide_eq_true_eq] at hout
  omega

/-- No boundary is printable. -/
theorem isBoundary_of_isPrintable {c : Char} (h : isPrintable c = true) : isBoundary c = false := by
  have hunprintable : boundaries.all (fun c => !isPrintable c) = true := by decide +kernel
  rw [← Bool.not_eq_true]
  intro hmem
  have hc := List.all_eq_true.1 hunprintable c (List.contains_iff_mem.1 hmem)
  simp [h] at hc

/-- A line in front of a line feed is shown as it is. -/
theorem shownLines_line {line : List Char} (h : ∀ c ∈ line, isBoundary c = false)
    (rest : List Char) : shownLines (line ++ '\n' :: rest) = line :: shownLines rest := by
  induction line with
  | nil => exact shownLines.eq_3 '\n' rest (fun _ h _ => by cases h)
  | cons c line ih =>
    obtain ⟨hc, hline⟩ := List.forall_mem_cons.1 h
    have hcr : c ≠ '\r' := by
      rintro rfl
      exact absurd hc (by decide)
    rw [List.cons_append, shownLines.eq_3 c _ (fun _ heq _ => hcr heq), if_neg (by simp [hc]),
      ih hline]
    rfl

theorem shownLines_flatMap {α : Type} (items : List α) {f : α → List Char}
    (h : ∀ x ∈ items, ∀ c ∈ f x, isBoundary c = false) :
    shownLines (items.flatMap (fun x => f x ++ ['\n'])) = items.map f := by
  induction items with
  | nil => rfl
  | cons x items ih =>
    obtain ⟨hx, hitems⟩ := List.forall_mem_cons.1 h
    rw [List.flatMap_cons, List.append_assoc, List.singleton_append, shownLines_line hx, ih hitems]
    rfl

namespace Quoted

theorem escape_boundary {m : Char} (hm : m = single ∨ m = double) (c : Char) :
    ∀ x ∈ escape m c, isBoundary x = false := by
  have hpair : ∀ d : Char, 32 ≤ d.toNat ∧ d.toNat ≤ 126 → IsVisible ['\\', d] := by
    intro d hd x hx
    rcases List.mem_cons.1 hx with rfl | hx
    · decide
    · obtain rfl := List.mem_singleton.1 hx
      exact hd
  have hcode : ∀ (d : Char) (width : Nat), 32 ≤ d.toNat ∧ d.toNat ≤ 126 →
      IsVisible ('\\' :: d :: hex width c.toNat) := fun d width hd =>
    isVisible_append (a := ['\\', d]).2 ⟨hpair d hd, isVisible_hex width _⟩
  unfold escape escapeCode
  split
  · rename_i h
    refine isBoundary_of_isVisible (hpair c ?_)
    rcases h with rfl | rfl
    · decide
    · rcases hm with rfl | rfl <;> decide
  · iterate 3
      split
      · exact isBoundary_of_isVisible (hpair _ (by decide))
    split
    · rename_i hprintable
      intro x hx
      obtain rfl := List.mem_singleton.1 hx
      exact isBoundary_of_isPrintable hprintable
    · repeat' split
      all_goals exact isBoundary_of_isVisible (hcode _ _ (by decide))

/-- **Quoted text stays on one line.** -/
theorem encode_boundary (text : List Char) : ∀ c ∈ encode text, isBoundary c = false := by
  have hm := mark_cases text
  have hmark : isBoundary (mark text) = false := by rcases hm with h | h <;> rw [h] <;> decide
  intro c hc
  rcases List.mem_cons.1 hc with rfl | hc
  · exact hmark
  rcases List.mem_append.1 hc with hc | hc
  · obtain ⟨x, _, hx⟩ := List.mem_flatMap.1 hc
    exact escape_boundary hm x c hx
  · obtain rfl := List.mem_singleton.1 hc
    exact hmark

end Quoted

end Text

open Text

/-! ## Records -/

theorem Kind.ofName?_name (k : Kind) : Kind.ofName? k.name = some k := by
  cases k <;> rfl

/-- The name of a kind is made of visible characters, and a space is none of them. -/
theorem Kind.isVisible_name (k : Kind) : IsVisible k.name.toList ∧ ' ' ∉ k.name.toList := by
  refine ⟨isVisible_of_all ?_, ?_⟩ <;> cases k <;> decide

namespace Record

/-- The kind and the literal that a text record shows. -/
def read? (line : List Char) : Option (Kind × String) :=
  match Kind.ofName? (String.ofList (line.takeWhile (· != ' '))) with
  | none => none
  | some kind =>
    (Quoted.decode ((line.dropWhile (· != ' ')).drop 1)).map
      (fun literal => (kind, String.ofList literal))

/-- **A text record is read back.** -/
theorem read?_text (t : Token) : read? (text t) = some t.face := by
  have hname : ∀ c ∈ t.kind.name.toList, (c != ' ') = true := by
    intro c hc
    have hne : c ≠ ' ' := fun h => t.kind.isVisible_name.2 (h ▸ hc)
    simpa using hne
  have htake : (text t).takeWhile (· != ' ') = t.kind.name.toList := by
    unfold text
    rw [List.takeWhile_append_of_pos hname]
    simp
  have hdrop : (text t).dropWhile (· != ' ') = ' ' :: Quoted.encode t.literal.toList := by
    unfold text
    rw [List.dropWhile_append_of_pos hname]
    simp
  simp [read?, htake, hdrop, Kind.ofName?_name, Quoted.decode_encode, Token.face]

theorem text_boundary (t : Token) : ∀ c ∈ text t, isBoundary c = false := by
  intro c hc
  rcases List.mem_append.1 hc with hc | hc
  · exact isBoundary_of_isVisible t.kind.isVisible_name.1 c hc
  rcases List.mem_cons.1 hc with rfl | hc
  · decide
  · exact Quoted.encode_boundary _ c hc

end Record

theorem shownLines_dump_text (lineOffset : Int) (ts : List Token) :
    shownLines (dump .text lineOffset ts) = ts.map Record.text :=
  shownLines_flatMap ts (fun t _ => Record.text_boundary t)

/-- Text records are written whatever the positions are. -/
theorem writeAll_text (lineOffset : Int) (ts : List Token) :
    writeAll .text lineOffset ts = (dump .text lineOffset ts, none) :=
  writeAll_of_writable (fun _ _ => rfl)

/-- Text records are those of what equality of tokens looks at. -/
theorem dump_text_eq_face (lineOffset : Int) (ts : List Token) :
    dump .text lineOffset ts =
      (ts.map Token.face).flatMap (fun face => Record.text ⟨face.1, face.2, none⟩ ++ ['\n']) := by
  rw [List.flatMap_map]
  rfl

/-- What is read from the lines of text records. -/
theorem read?_dump_text (lineOffset : Int) (ts : List Token) :
    (shownLines (dump .text lineOffset ts)).map Record.read? =
      (ts.map Token.face).map some := by
  rw [shownLines_dump_text, List.map_map, List.map_map]
  exact List.map_congr_left (fun t _ => Record.read?_text t)

/-- **Text records show what equality of tokens looks at.**  They are always written; two lists of
tokens have the same records exactly if they are equal, wherever their tokens stand.  No character
of a record ends a line anywhere, so that the records are the lines of what is written, and each
line gives the kind and the literal of its token back. -/
theorem text_records_faithful (lineOffset : Int) (ts : List Token) :
    writeAll .text lineOffset ts = (dump .text lineOffset ts, none) ∧
    (∀ otherOffset us, dump .text lineOffset ts = dump .text otherOffset us ↔
      sameTokens ts us = true) ∧
    (∀ t ∈ ts, ∀ c ∈ Record.render .text lineOffset t, isBoundary c = false) ∧
    shownLines (dump .text lineOffset ts) = ts.map (Record.render .text lineOffset) ∧
    (shownLines (dump .text lineOffset ts)).map Record.read? =
      ts.map (fun t => some (t.kind, t.literal)) := by
  have hread := read?_dump_text lineOffset ts
  refine ⟨writeAll_text lineOffset ts, ?_, fun t _ => Record.text_boundary t,
    shownLines_dump_text lineOffset ts, by rw [hread, List.map_map]; rfl⟩
  intro otherOffset us
  rw [sameTokens_iff]
  constructor
  · intro hsame
    rw [hsame, read?_dump_text] at hread
    exact ((List.map_inj_right (fun _ _ => Option.some.inj)).1 hread).symm
  · intro hface
    rw [dump_text_eq_face, hface, ← dump_text_eq_face]

/-- A line feed and its escape, spelled out, are told apart: neither record has a line feed, and the
second has a backslash more. -/
theorem text_records_escape_line_feed :
    let feed : Token := ⟨.illegal, "\n", some ⟨1, 1, 0⟩⟩
    let spelled : Token := ⟨.illegal, "\\n", none⟩
    feed ∈ [feed, spelled] ∧ (∀ c ∈ Record.render .text 0 feed, isBoundary c = false) ∧
      dump .text 0 [feed, spelled] ≠ dump .text 1 [spelled, feed] ∧
      shownLines (dump .text 0 [feed, spelled]) =
        ["ILLEGAL '\\n'".toList, "ILLEGAL '\\\\n'".toList] := by
  intro feed spelled
  obtain ⟨_, hsame, hshown, hlines, _⟩ := text_records_faithful 0 [feed, spelled]
  refine ⟨by simp, hshown feed (by simp), ?_, ?_⟩
  · rw [Ne, hsame]
    decide
  · rw [hlines]
    decide

end Lexline
