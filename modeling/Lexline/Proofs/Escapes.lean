import Lexline.Text.Numeral

/-!
# Reading escaped text

Text between marks is written character by character, each one as itself or as an escape.  It is
read back the same way, up to the closing mark.

* `Reader` — what the start of a text denotes, and what is left of the text.
* `takeWhile_run` — a run of characters of one class, up to one of another.
* `hexAt?` — a number of fixed width, and `hexAt?_hex` its round trip.
* `readUntil` — characters up to a mark, read one by one.
* `readUntil_flatMap` — **what is written character by character is read back**, if each character
  is, whatever follows it.
-/

namespace Lexline.Text

/-- A reader takes what it denotes from the start of a text, and leaves the rest. -/
abbrev Reader (α : Type) := List Char → Option (α × List Char)

/-- A run of characters of one class, in front of one that is not in it. -/
theorem takeWhile_run {p : Char → Bool} {run rest : List Char} (hrun : ∀ x ∈ run, p x = true)
    (hrest : ∀ x ∈ rest.head?, p x = false) :
    (run ++ rest).takeWhile p = run ∧ (run ++ rest).dropWhile p = rest := by
  rw [List.takeWhile_append_of_pos hrun, List.dropWhile_append_of_pos hrun]
  cases rest with
  | nil => simp
  | cons x rest => simp [hrest x rfl]

/-! ## Hexadecimal numbers -/

/-- A number of exactly `width` hexadecimal digits. -/
def hexAt? (width : Nat) : Reader Nat := fun text =>
  match hexNumber? (text.take width) with
  | none => none
  | some n => if (text.take width).length = width then some (n, text.drop width) else none

theorem hexValue?_hexDigit : ∀ d < 16, hexValue? (hexDigit d) = some d := by decide

theorem hexNumber?_append {digits : List Char} {n d : Nat} {c : Char}
    (hdigits : hexNumber? digits = some n) (hc : hexValue? c = some d) :
    hexNumber? (digits ++ [c]) = some (16 * n + d) := by
  unfold hexNumber? at hdigits ⊢
  rw [List.foldl_append, hdigits]
  simp [hc]

/-- The digits of a number denote its last digits. -/
theorem hexNumber?_hex (width n : Nat) :
    hexNumber? (hex width n) = some (n % Nat.pow 16 width) := by
  induction width generalizing n with
  | zero => simp [hex, hexNumber?, Nat.mod_one]
  | succ width ih =>
    have hlast : hexValue? (hexDigit (n % 16)) = some (n % 16) :=
      hexValue?_hexDigit _ (Nat.mod_lt _ (by decide))
    have hpow : Nat.pow 16 (width + 1) = 16 * Nat.pow 16 width := Nat.mul_comm ..
    rw [hex, hexNumber?_append (ih (n / 16)) hlast, hpow, Nat.mod_mul]
    congr 1
    omega

/-- **A number that fits its width is read back**, whatever follows it. -/
theorem hexAt?_hex (width : Nat) {n : Nat} (h : n < Nat.pow 16 width) (rest : List Char) :
    hexAt? width (hex width n ++ rest) = some (n, rest) := by
  have htake : (hex width n ++ rest).take width = hex width n := List.take_left' (hex_length ..)
  have hdrop : (hex width n ++ rest).drop width = rest := List.drop_left' (hex_length ..)
  unfold hexAt?
  rw [htake, hdrop, hexNumber?_hex, Nat.mod_eq_of_lt h]
  simp [hex_length]

/-! ## Up to a mark -/

/-- Characters up to a closing mark, each taken by `one`.  A reader that takes nothing would not
come to an end, so it fails. -/
def readUntil (mark : Char) (one : Reader Char) (text : List Char) :
    Option (List Char × List Char) :=
  match text with
  | [] => none
  | c :: rest =>
    if c = mark then some ([], rest)
    else
      match one (c :: rest) with
      | none => none
      | some (x, more) =>
        if _h : more.length < (c :: rest).length then
          match readUntil mark one more with
          | none => none
          | some (xs, last) => some (x :: xs, last)
        else none
termination_by text.length
decreasing_by exact _h

/-- **What is written character by character is read back**, up to the mark. -/
theorem readUntil_flatMap {mark : Char} {one : Reader Char} {write : Char → List Char}
    (text : List Char) (hone : ∀ c ∈ text, ∀ rest, one (write c ++ rest) = some (c, rest))
    (hopen : ∀ c ∈ text, ∃ x tail, write c = x :: tail ∧ x ≠ mark) (rest : List Char) :
    readUntil mark one (text.flatMap write ++ mark :: rest) = some (text, rest) := by
  induction text with
  | nil => simp [readUntil]
  | cons c text ih =>
    obtain ⟨hc, htext⟩ := List.forall_mem_cons.1 hone
    obtain ⟨⟨x, tail, hwrite, hx⟩, hopen⟩ := List.forall_mem_cons.1 hopen
    have hread := hc (text.flatMap write ++ mark :: rest)
    have hshorter : (text.flatMap write ++ mark :: rest).length <
        (x :: (tail ++ (text.flatMap write ++ mark :: rest))).length := by
      simp only [List.length_cons, List.length_append]
      omega
    rw [hwrite, List.cons_append] at hread
    rw [List.flatMap_cons, List.append_assoc, hwrite, List.cons_append, readUntil, if_neg hx, hread]
    simp only [dif_pos hshorter, ih htext hopen]

end Lexline.Text
