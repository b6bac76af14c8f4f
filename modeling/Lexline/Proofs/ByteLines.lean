import Lexline.Console.Feed
import Lexline.Proofs.Encoding
import Lexline.Proofs.Lines
import Mathlib

/-!
# Lines of bytes

A byte stream is decoded before it is cut into lines.  Line endings are single bytes, and no piece
of the decoding takes one in, so cutting the bytes first gives the same lines.

* `byteLines`, `byteLines_induct` — the lines of a byte string, and induction along them.
* `byteLines_flatten` — lines that stand in front of each other are the lines of what they spell.
* `decodeLossy_append` — **a byte below 0x80 starts anew**: what stands before it has no say in what
  it and the bytes after it decode to, nor the other way round.
* `splitLines_decodeLossy` — **the lines of the decoded text are the decoded lines**.
* `ofBytesLossy_eq` — a console serves the lines of its bytes, each decoded by itself.
-/

namespace Lexline

open Text

/-! ## Cutting bytes -/

/-- The text that has for each byte the character of the same number. -/
def byteText (bytes : List UInt8) : List Char := bytes.map Char.ofUInt8

/-- The lines of a byte string.  A line ends after a line feed, after a carriage return and a line
feed together, or after a carriage return alone. -/
def byteLines (bytes : List UInt8) : List (List UInt8) :=
  (splitLines (byteText bytes)).map (List.map Char.toUInt8)

example : byteLines [97, 13, 98, 255, 13, 10, 10, 99] =
    [[97, 13], [98, 255, 13, 10], [10], [99]] := by decide

theorem byteText_append (a b : List UInt8) : byteText (a ++ b) = byteText a ++ byteText b :=
  List.map_append

theorem toUInt8_byteText (bytes : List UInt8) : (byteText bytes).map Char.toUInt8 = bytes := by
  have hbyte (b : UInt8) : (Char.ofUInt8 b).toUInt8 = b := by
    simp [Char.ofUInt8, Char.toUInt8]
  simp [byteText, Function.comp_def, hbyte]

/-- **A line in front of other bytes is cut off as a whole.** -/
theorem byteLines_append {raw rest : List UInt8} (h : IsLine (byteText raw) (byteText rest)) :
    byteLines (raw ++ rest) = raw :: byteLines rest := by
  unfold byteLines
  rw [byteText_append, splitLines_append h, List.map_cons, toUInt8_byteText]

/-- **Induction along the lines of a byte string.** -/
theorem byteLines_induct {motive : List UInt8 → Prop} (nil : motive [])
    (line : ∀ raw rest, IsLine (byteText raw) (byteText rest) → motive rest → motive (raw ++ rest))
    (bytes : List UInt8) : motive bytes := by
  obtain ⟨text, htext⟩ : ∃ text, text = byteText bytes := ⟨_, rfl⟩
  induction text using splitLines_induct generalizing bytes with
  | nil =>
    obtain rfl : bytes = [] := List.map_eq_nil_iff.1 htext.symm
    exact nil
  | line first rest hline ih =>
    obtain ⟨raw, more, rfl, rfl, rfl⟩ := List.map_eq_append_iff.1 htext.symm
    exact line raw more hline (ih more rfl)

theorem splitLines_byteText (bytes : List UInt8) :
    splitLines (byteText bytes) = (byteLines bytes).map byteText := by
  induction bytes using byteLines_induct with
  | nil => rfl
  | line raw rest hline ih =>
    rw [byteText_append, splitLines_append hline, byteLines_append hline, ih, List.map_cons]

theorem byteLines_flatten {lines : List (List UInt8)} (h : Cut (lines.map byteText)) :
    byteLines lines.flatten = lines := by
  have htext : byteText lines.flatten = (lines.map byteText).flatten := List.map_flatten
  have hback : List.map Char.toUInt8 ∘ byteText = id := funext toUInt8_byteText
  unfold byteLines
  rw [htext, h.splitLines_flatten, List.map_map, hback, List.map_id]

theorem mem_byteLines {bytes raw : List UInt8} (h : raw ∈ byteLines bytes) :
    ∃ rest, IsLine (byteText raw) rest := by
  have hmem : byteText raw ∈ splitLines (byteText bytes) := by
    rw [splitLines_byteText]
    exact List.mem_map_of_mem h
  exact mem_splitLines hmem

namespace Text.Utf8

/-! ## Where decoding starts anew -/

/-- A continuation byte is none below 0x80, so such a byte ends a sequence as the end does. -/
theorem follow_append {low : Nat} (hlow : 0x80 ≤ low) (high bits count : Nat)
    (seen bytes : List UInt8) {x : UInt8} (hx : x.toNat < 0x80) (more : List UInt8) :
    (follow low high bits seen count (bytes ++ x :: more)).1.char =
        (follow low high bits seen count bytes).1.char ∧
      (follow low high bits seen count (bytes ++ x :: more)).2 =
        (follow low high bits seen count bytes).2 ++ x :: more := by
  induction count generalizing low high bits seen bytes with
  | zero => exact ⟨rfl, rfl⟩
  | succ count ih =>
    cases bytes with
    | nil =>
      have hnot : ¬ (low ≤ x.toNat ∧ x.toNat ≤ high) := by omega
      have hstop : follow low high bits seen (count + 1) (x :: more) =
          (.flawed seen.reverse .continuation, x :: more) := if_neg hnot
      rw [List.nil_append, hstop]
      exact ⟨rfl, rfl⟩
    | cons byte rest =>
      simp only [List.cons_append, follow]
      split
      · exact ih (Nat.le_refl _) ..
      · exact ⟨rfl, rfl⟩

theorem first_append (byte : UInt8) (rest : List UInt8) {x : UInt8} (hx : x.toNat < 0x80)
    (more : List UInt8) :
    (first byte (rest ++ x :: more)).1.char = (first byte rest).1.char ∧
      (first byte (rest ++ x :: more)).2 = (first byte rest).2 ++ x :: more := by
  unfold first
  split
  · exact ⟨rfl, rfl⟩
  · split
    · exact ⟨rfl, rfl⟩
    · rename_i lead hlead
      have hlow : 0x80 ≤ lead.low := by
        rcases lead?_cases hlead with ⟨_, _, _, _, h, _⟩ | ⟨_, _, _, h, _⟩ | ⟨_, _, h, _⟩ <;> omega
      exact follow_append hlow _ _ _ _ _ hx more

theorem decodeLossy_nil : decodeLossy [] = [] := by
  rw [decodeLossy, pieces]
  rfl

theorem decodeLossy_cons (byte : UInt8) (rest : List UInt8) :
    decodeLossy (byte :: rest) = (first byte rest).1.char :: decodeLossy (first byte rest).2 := by
  rw [decodeLossy, pieces]
  rfl

/-- **A byte below 0x80 starts anew.** -/
theorem decodeLossy_append (bytes : List UInt8) {x : UInt8} (hx : x.toNat < 0x80)
    (more : List UInt8) :
    decodeLossy (bytes ++ x :: more) = decodeLossy bytes ++ decodeLossy (x :: more) := by
  induction bytes using pieces.induct with
  | case1 => rw [decodeLossy_nil]; rfl
  | case2 byte rest ih =>
    obtain ⟨hchar, hafter⟩ := first_append byte rest hx more
    rw [List.cons_append, decodeLossy_cons, decodeLossy_cons, hchar, hafter, ih]
    rfl

/-- A byte below 0x80 is a character by itself. -/
theorem decodeLossy_ascii {x : UInt8} (hx : x.toNat < 0x80) (more : List UInt8) :
    decodeLossy (x :: more) = Char.ofUInt8 x :: decodeLossy more := by
  have hfirst : first x more = (.scalar (Char.ofNat x.toNat), more) := by
    unfold first
    rw [if_pos hx]
  have hchar : Char.ofNat x.toNat = Char.ofUInt8 x := by
    refine Char.toNat_inj.1 ?_
    rw [toNat_ofNat_scalar (by omega)]
    rfl
  rw [decodeLossy_cons, hfirst, hchar]
  rfl

/-- A piece for a character below 0x80 is the one byte of this character. -/
theorem first_of_ascii {byte : UInt8} {rest : List UInt8}
    (h : (first byte rest).1.char.toNat < 0x80) :
    Char.ofUInt8 byte = (first byte rest).1.char ∧ (first byte rest).2 = rest := by
  cases hfirst : first byte rest with
  | mk piece after =>
    rw [hfirst] at h
    cases piece with
    | flawed =>
      have hreplaced : ¬ '\ufffd'.toNat < 0x80 := by decide
      exact absurd h hreplaced
    | scalar c =>
      have hbytes := encodeChar_of_first hfirst
      have hone : encodeChar c = [c.toNat.toUInt8] := if_pos h
      rw [hone] at hbytes
      obtain ⟨rfl, rfl⟩ := List.cons.inj hbytes
      refine ⟨Char.toNat_inj.1 ?_, rfl⟩
      exact toNat_toUInt8 (Nat.lt_trans h (by decide))

theorem follow_suffix (low high bits : Nat) (seen : List UInt8) (count : Nat)
    (bytes : List UInt8) : (follow low high bits seen count bytes).2 <:+ bytes := by
  induction count generalizing low high bits seen bytes with
  | zero => exact List.suffix_refl bytes
  | succ count ih =>
    cases bytes with
    | nil => exact List.suffix_refl []
    | cons byte rest =>
      rw [follow]
      split
      · exact (ih ..).trans (List.suffix_cons byte rest)
      · exact List.suffix_refl _

theorem first_suffix (byte : UInt8) (rest : List UInt8) : (first byte rest).2 <:+ rest := by
  unfold first
  split
  · exact List.suffix_refl rest
  · split
    · exact List.suffix_refl rest
    · exact follow_suffix ..

/-- The characters below 0x80 of the decoded text are bytes. -/
theorem mem_byteText_of_mem {bytes : List UInt8} {c : Char} (hc : c.toNat < 0x80)
    (h : c ∈ decodeLossy bytes) : c ∈ byteText bytes := by
  induction bytes using pieces.induct with
  | case1 =>
    rw [decodeLossy_nil] at h
    cases h
  | case2 byte rest ih =>
    rw [decodeLossy_cons] at h
    rcases List.mem_cons.1 h with rfl | h
    · obtain ⟨hbyte, _⟩ := first_of_ascii hc
      rw [← hbyte]
      exact List.mem_cons_self
    · have hlater : byteText (first byte rest).2 ⊆ byteText rest :=
        List.map_subset _ (first_suffix byte rest).subset
      exact List.mem_cons_of_mem _ (hlater (ih h))

/-- The decoded text starts with a character below 0x80 only if the bytes do. -/
theorem head_byteText_of_head {bytes : List UInt8} {c : Char} (hc : c.toNat < 0x80)
    (h : (decodeLossy bytes).head? = some c) : (byteText bytes).head? = some c := by
  cases bytes with
  | nil =>
    rw [decodeLossy_nil] at h
    cases h
  | cons byte rest =>
    rw [decodeLossy_cons] at h
    obtain rfl := Option.some.inj h
    exact congrArg some (first_of_ascii hc).1

end Text.Utf8

open Text.Utf8

/-! ## Lines of the decoded text -/

theorem isPlain_decodeLossy {body : List UInt8} (h : IsPlain (byteText body)) :
    IsPlain (decodeLossy body) := by
  intro c hc
  constructor
  · rintro rfl
    exact (h _ (mem_byteText_of_mem (by decide) hc)).1 rfl
  · rintro rfl
    exact (h _ (mem_byteText_of_mem (by decide) hc)).2 rfl

theorem decodeLossy_ne_nil {bytes : List UInt8} (h : bytes ≠ []) : decodeLossy bytes ≠ [] := by
  obtain ⟨byte, rest, rfl⟩ := List.exists_cons_of_ne_nil h
  rw [decodeLossy_cons]
  exact List.cons_ne_nil _ _

theorem toNat_lt_of_break {b : List UInt8} {rest : List Char} (h : IsBreak (byteText b) rest) :
    ∀ x ∈ b, x.toNat < 0x80 := by
  intro x hx
  have hmem : Char.ofUInt8 x ∈ byteText b := List.mem_map_of_mem hx
  have hending : ∀ c ∈ byteText b, c.toNat < 0x80 := by
    generalize byteText b = ending at h
    cases h <;> simp
  exact hending _ hmem

theorem decodeLossy_ascii_append {b : List UInt8} (h : ∀ x ∈ b, x.toNat < 0x80)
    (rest : List UInt8) : decodeLossy (b ++ rest) = byteText b ++ decodeLossy rest := by
  induction b with
  | nil => rfl
  | cons x b ih =>
    obtain ⟨hx, hb⟩ := List.forall_mem_cons.1 h
    rw [List.cons_append, decodeLossy_ascii hx, ih hb]
    rfl

/-- A line ending, what stands before it and what comes after it are decoded apart. -/
theorem decodeLossy_break {b rest : List UInt8} (h : IsBreak (byteText b) (byteText rest))
    (body : List UInt8) :
    decodeLossy (body ++ b ++ rest) = decodeLossy body ++ byteText b ++ decodeLossy rest := by
  have hascii : ∀ x ∈ b, x.toNat < 0x80 := toNat_lt_of_break h
  have hne : b ≠ [] := by
    rintro rfl
    exact h.ne_nil rfl
  obtain ⟨x, b, rfl⟩ := List.exists_cons_of_ne_nil hne
  rw [List.append_assoc, List.append_assoc, List.cons_append,
    decodeLossy_append body (hascii x List.mem_cons_self), ← List.cons_append,
    decodeLossy_ascii_append hascii]

/-- **A line is decoded apart from what follows it**, and is a line then too. -/
theorem decodeLossy_line {raw rest : List UInt8} (h : IsLine (byteText raw) (byteText rest)) :
    decodeLossy (raw ++ rest) = decodeLossy raw ++ decodeLossy rest ∧
      IsLine (decodeLossy raw) (decodeLossy rest) := by
  generalize hraw : byteText raw = line at h
  generalize hrest : byteText rest = tail at h
  cases h with
  | @closed body b _ plain ending =>
    obtain ⟨body, b, rfl, rfl, rfl⟩ := List.map_eq_append_iff.1 hraw
    subst hrest
    have hwhole := decodeLossy_break ending body
    have hend : IsBreak (byteText b) (byteText []) := ending.at_end
    have halone := decodeLossy_break hend body
    rw [decodeLossy_nil, List.append_nil, List.append_nil] at halone
    refine ⟨by rw [hwhole, halone], ?_⟩
    rw [halone]
    refine .closed (isPlain_decodeLossy plain) (ending.of_head ?_)
    exact head_byteText_of_head (by decide)
  | last plain nonempty =>
    subst hraw
    obtain rfl : rest = [] := List.map_eq_nil_iff.1 hrest
    have hne : raw ≠ [] := by
      rintro rfl
      exact nonempty rfl
    rw [decodeLossy_nil, List.append_nil, List.append_nil]
    exact ⟨rfl, .last (isPlain_decodeLossy plain) (decodeLossy_ne_nil hne)⟩

/-- A line by itself is decoded to a line. -/
theorem isLine_decodeLossy {raw : List UInt8} {rest : List Char} (h : IsLine (byteText raw) rest) :
    IsLine (decodeLossy raw) [] := by
  have hend : IsLine (byteText raw) (byteText []) := h.at_end
  exact (decodeLossy_line hend).2.at_end

/-- **The lines of the decoded text are the decoded lines.** -/
theorem splitLines_decodeLossy (bytes : List UInt8) :
    splitLines (decodeLossy bytes) = (byteLines bytes).map decodeLossy := by
  induction bytes using byteLines_induct with
  | nil => rw [decodeLossy_nil]; rfl
  | line raw rest hline ih =>
    obtain ⟨hsplit, hdecoded⟩ := decodeLossy_line hline
    rw [hsplit, splitLines_append hdecoded, byteLines_append hline, ih, List.map_cons]

/-- The line of a console with the given bytes: its ending counts as a line feed. -/
def consoleLine (raw : List UInt8) : List Char := unifyBreaks (decodeLossy raw)

/-- **A console serves the lines of its bytes**, each decoded by itself. -/
theorem ofBytesLossy_eq (bytes : List UInt8) :
    Feed.ofBytesLossy bytes = ⟨(byteLines bytes).map consoleLine, .endOfInput⟩ := by
  unfold Feed.ofBytesLossy Feed.ofText
  rw [feedLines_eq_splitLines (cr_not_mem_unifyBreaks _), splitLines_unifyBreaks,
    splitLines_decodeLossy, List.map_map]
  rfl

end Lexline
