import Lexline.Proofs.Lines
import Mathlib.Data.List.Chain

/-!
# The only cut into lines

`splitLines` goes through a text and looks ahead.  What it gives can be told from the lines alone,
each taken by itself and next to the following one.

* `IsClosed`, `IsOpen` — a line with its ending, and a last line without one.
* `Parts` — two texts that a cut may stand between.
* `AreLines` — lists of lines, told from their members and their neighbours.
* `splitLines_eq_iff` — **the lines of a text are the only such list that spells it**.
* `areLines_append_iff` — when the lines of two texts are such a list, put together.
* `splitLines_only_cut` — both as one, with the exact condition for cutting two texts apart.
-/

namespace Lexline.Text

/-- A line with its ending: a line feed, a carriage return and a line feed, or a carriage return. -/
def IsClosed (line : List Char) : Prop :=
  ∃ body ending, IsPlain body ∧
    (ending = ['\n'] ∨ ending = ['\r', '\n'] ∨ ending = ['\r']) ∧ line = body ++ ending

/-- A line without an ending, which is not empty. -/
def IsOpen (line : List Char) : Prop := IsPlain line ∧ line ≠ []

/-- A cut may stand between two texts: it does not take a carriage return and a line feed apart. -/
def Parts (a b : List Char) : Prop := ¬ (a.getLast? = some '\r' ∧ b.head? = some '\n')

/-- A list of lines, one after the other: all have an ending, but the last one may lack it, and no
ending is cut apart. -/
structure AreLines (lines : List (List Char)) : Prop where
  closed : ∀ line ∈ lines.dropLast, IsClosed line
  last : ∀ line ∈ lines.getLast?, IsClosed line ∨ IsOpen line
  apart : lines.IsChain Parts

theorem parts_nil (a : List Char) : Parts a [] := by
  rintro ⟨_, h⟩
  cases h

theorem parts_append {a b : List Char} (hb : b ≠ []) (more : List Char) :
    Parts a (b ++ more) ↔ Parts a b := by
  rw [Parts, Parts, List.head?_append_of_ne_nil b hb]

/-! ## One line -/

/-- The endings in front of a text, told from the line that they end. -/
theorem isBreak_iff {body ending rest : List Char} : IsBreak ending rest ↔
    (ending = ['\n'] ∨ ending = ['\r', '\n'] ∨ ending = ['\r']) ∧ Parts (body ++ ending) rest := by
  constructor
  · intro h
    cases h with
    | lf => simp [Parts]
    | crlf => simp [Parts]
    | cr apart => simpa [Parts] using apart
  · rintro ⟨rfl | rfl | rfl, hparts⟩
    · exact .lf
    · exact .crlf
    · exact .cr (by simpa [Parts] using hparts)

/-- **A line in front of a text** has an ending that is not cut apart, or it is open and nothing
follows. -/
theorem isLine_iff {line rest : List Char} :
    IsLine line rest ↔ IsClosed line ∧ Parts line rest ∨ IsOpen line ∧ rest = [] := by
  constructor
  · intro h
    cases h with
    | @closed body b _ plain ending =>
      obtain ⟨hb, hparts⟩ := isBreak_iff.1 ending
      exact Or.inl ⟨⟨body, b, plain, hb, rfl⟩, hparts⟩
    | last plain nonempty => exact Or.inr ⟨⟨plain, nonempty⟩, rfl⟩
  · rintro (⟨⟨body, b, plain, hb, rfl⟩, hparts⟩ | ⟨⟨plain, nonempty⟩, rfl⟩)
    · exact .closed plain (isBreak_iff.2 ⟨hb, hparts⟩)
    · exact .last plain nonempty

theorem IsClosed.not_isPlain {line : List Char} (h : IsClosed line) : ¬ IsPlain line := by
  obtain ⟨body, ending, _, rfl | rfl | rfl, rfl⟩ := h
  · exact fun plain => (plain '\n' (by simp)).1 rfl
  · exact fun plain => (plain '\n' (by simp)).1 rfl
  · exact fun plain => (plain '\r' (by simp)).2 rfl

/-! ## Lists of lines -/

theorem areLines_nil : AreLines [] :=
  ⟨by simp, by simp, .nil⟩

theorem areLines_singleton {line : List Char} :
    AreLines [line] ↔ IsClosed line ∨ IsOpen line := by
  constructor
  · intro h
    exact h.last line rfl
  · intro h
    exact ⟨by simp, by simpa using h, .singleton line⟩

theorem areLines_append {xs ys : List (List Char)} (hys : ys ≠ []) :
    AreLines (xs ++ ys) ↔ (∀ line ∈ xs, IsClosed line) ∧ xs.IsChain Parts ∧
      (∀ x ∈ xs.getLast?, ∀ y ∈ ys.head?, Parts x y) ∧ AreLines ys := by
  have hlast : (xs ++ ys).getLast? = ys.getLast? := List.getLast?_append_of_ne_nil xs hys
  have hinit : (xs ++ ys).dropLast = xs ++ ys.dropLast := List.dropLast_append_of_ne_nil hys
  constructor
  · rintro ⟨hclosed, hend, hchain⟩
    rw [hinit, List.forall_mem_append] at hclosed
    rw [hlast] at hend
    obtain ⟨hxs, hys', hjoint⟩ := List.isChain_append.1 hchain
    exact ⟨hclosed.1, hxs, hjoint, hclosed.2, hend, hys'⟩
  · rintro ⟨hclosed, hxs, hjoint, hrest⟩
    refine ⟨?_, ?_, List.isChain_append.2 ⟨hxs, hrest.apart, hjoint⟩⟩
    · rw [hinit, List.forall_mem_append]
      exact ⟨hclosed, hrest.closed⟩
    · rw [hlast]
      exact hrest.last

theorem areLines_cons {line next : List Char} {rest : List (List Char)} :
    AreLines (line :: next :: rest) ↔
      IsClosed line ∧ Parts line next ∧ AreLines (next :: rest) := by
  have h : AreLines ([line] ++ next :: rest) ↔ _ := areLines_append (List.cons_ne_nil next rest)
  simpa using h

theorem cut_cons {line : List Char} {rest : List (List Char)} :
    Cut (line :: rest) ↔ IsLine line rest.flatten ∧ Cut rest := by
  constructor
  · intro h
    cases h with
    | cons first others => exact ⟨first, others⟩
  · rintro ⟨first, others⟩
    exact .cons first others

/-- **Looking at the next line is looking at all that follows.** -/
theorem cut_iff_areLines {lines : List (List Char)} : Cut lines ↔ AreLines lines := by
  induction lines with
  | nil => exact iff_of_true .nil areLines_nil
  | cons line rest ih =>
    rw [cut_cons, isLine_iff]
    cases rest with
    | nil => simp [areLines_singleton, parts_nil, Cut.nil]
    | cons next rest =>
      rw [areLines_cons, ← ih, cut_cons]
      constructor
      · rintro ⟨hfirst, hnext, hrest⟩
        rcases hfirst with ⟨hclosed, hparts⟩ | ⟨_, hnil⟩
        · exact ⟨hclosed, (parts_append hnext.ne_nil _).1 hparts, hnext, hrest⟩
        · exact absurd (List.append_eq_nil_iff.1 hnil).1 hnext.ne_nil
      · rintro ⟨hclosed, hparts, hnext, hrest⟩
        exact ⟨Or.inl ⟨hclosed, (parts_append hnext.ne_nil _).2 hparts⟩, hnext, hrest⟩

/-- **The lines of a text are the only list of lines that spells it.** -/
theorem splitLines_eq_iff {source : List Char} {lines : List (List Char)} :
    splitLines source = lines ↔ lines.flatten = source ∧ AreLines lines := by
  rw [← cut_iff_areLines]
  constructor
  · rintro rfl
    exact ⟨flatten_splitLines source, cut_splitLines source⟩
  · rintro ⟨rfl, hcut⟩
    exact hcut.splitLines_flatten

/-! ## Two texts -/

theorem getLast?_of_splitLines {text line : List Char}
    (h : (splitLines text).getLast? = some line) : line.getLast? = text.getLast? := by
  obtain ⟨init, hinit⟩ := List.getLast?_eq_some_iff.1 h
  obtain ⟨rest, hline⟩ := mem_splitLines (List.mem_of_getLast? h)
  have htext : text = init.flatten ++ line := by
    rw [← flatten_splitLines text, hinit, List.flatten_append, List.flatten_singleton]
  rw [htext, List.getLast?_append_of_ne_nil _ hline.ne_nil]

theorem head?_of_splitLines {text line : List Char} (h : (splitLines text).head? = some line) :
    line.head? = text.head? := by
  obtain ⟨tail, htail⟩ := List.head?_eq_some_iff.1 h
  obtain ⟨rest, hline⟩ := mem_splitLines (List.mem_of_head? h)
  have htext : text = line ++ tail.flatten := by
    rw [← flatten_splitLines text, htail, List.flatten_cons]
  rw [htext, hline.head?_append]

/-- All lines of a text have an ending exactly if the text ends in one. -/
theorem forall_isClosed_iff (text : List Char) :
    (∀ line ∈ splitLines text, IsClosed line) ↔ EndsClosed text := by
  induction text using splitLines_induct with
  | nil => exact iff_of_true (by simp [splitLines]) (Or.inl rfl)
  | line line rest hline ih =>
    rw [splitLines_append hline, List.forall_mem_cons, ih]
    cases hline with
    | @closed body b _ plain ending =>
      obtain ⟨hb, _⟩ : _ ∧ Parts (body ++ b) rest := isBreak_iff.1 ending
      rw [endsClosed_closed ending]
      exact and_iff_right ⟨body, b, plain, hb, rfl⟩
    | last plain nonempty =>
      rw [List.append_nil]
      exact iff_of_false (fun h => h.1.not_isPlain plain) (not_endsClosed_last plain nonempty)

/-- The lines of two texts, put together, are lines if the first text ends in a line ending and no
ending is cut apart. -/
theorem areLines_append_iff {a b : List Char} (ha : a ≠ []) (hb : b ≠ []) :
    AreLines (splitLines a ++ splitLines b) ↔ EndsClosed a ∧ Parts a b := by
  have hlines : ∀ text, AreLines (splitLines text) := fun _ => (splitLines_eq_iff.1 rfl).2
  have hjoint : (∀ x ∈ (splitLines a).getLast?, ∀ y ∈ (splitLines b).head?, Parts x y) ↔
      Parts a b := by
    obtain ⟨x, hx⟩ := Option.ne_none_iff_exists'.1
      (List.getLast?_eq_none_iff.not.2 (splitLines_ne_nil ha))
    obtain ⟨y, hy⟩ := Option.ne_none_iff_exists'.1
      (List.head?_eq_none_iff.not.2 (splitLines_ne_nil hb))
    rw [Parts, ← getLast?_of_splitLines hx, ← head?_of_splitLines hy, hx, hy]
    simp [Parts]
  rw [areLines_append (splitLines_ne_nil hb), forall_isClosed_iff, hjoint]
  constructor
  · rintro ⟨hend, _, hparts, _⟩
    exact ⟨hend, hparts⟩
  · rintro ⟨hend, hparts⟩
    exact ⟨hend, (hlines a).apart, hparts, hlines b⟩

/-- **The lines of a text are its only cut into lines**: the only list that spells the text, in
which each member is a body without line feeds and carriage returns and then a line ending, though
the last one may be a body alone, if that is not empty, and in which no member that ends in a
carriage return stands before one that starts with a line feed.  Hence the lines of two texts are
those of both together exactly if one of the texts is empty, or the first one ends in a line ending
that the second one does not go on with. -/
theorem splitLines_only_cut :
    (∀ source lines, (lines.flatten = source ∧ AreLines lines) ↔ lines = splitLines source) ∧
    ∀ a b, splitLines (a ++ b) = splitLines a ++ splitLines b ↔
      a = [] ∨ b = [] ∨ (a.getLast? = some '\r' ∨ a.getLast? = some '\n') ∧
        ¬ (a.getLast? = some '\r' ∧ b.head? = some '\n') := by
  constructor
  · intro source lines
    rw [← splitLines_eq_iff, eq_comm]
  · intro a b
    by_cases ha : a = []
    · subst ha
      simp [splitLines]
    by_cases hb : b = []
    · subst hb
      simp [splitLines]
    have hspells : (splitLines a ++ splitLines b).flatten = a ++ b := by
      rw [List.flatten_append, flatten_splitLines, flatten_splitLines]
    rw [splitLines_eq_iff, areLines_append_iff ha hb]
    simp [hspells, ha, hb, Parts, EndsClosed, or_comm]

/-- A cut inside of a line ending leaves a line feed that is a line of its own. -/
example : splitLines "a\r\nb".toList = ["a\r\n".toList, "b".toList] ∧
    splitLines "a\r".toList ++ splitLines "\nb".toList =
      ["a\r".toList, "\n".toList, "b".toList] := by decide

end Lexline.Text
