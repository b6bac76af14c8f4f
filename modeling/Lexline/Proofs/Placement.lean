import Lexline.Proofs.Lines
import Lexline.Proofs.Movement

/-!
# Where a cursor stands

A cursor counts lines as it leaves characters, with a look at the next one; `splitLines` cuts the
whole text.  Both see the same lines.

* `advance_closed`, `advance_last` — a cursor over one line: along its characters, and to the
  start of the next one.
* `position_inside`, `position_past` — the line and the column of every place of a text, inside it
  and past its end, from its lines.
* `Position.ofIndex`, `advance_position` — the position of a character by its index alone.
* `Cursor.Tracks` — what a cursor shows fits the source and its offset.
* `performAll_tracks` — **after every run of requests the cursor tracks its source**; it never
  moves back, only the end stops it, and where it stands tells all about it.
-/

namespace Lexline

open Text

/-- The place `n` characters further on the same line. -/
def Position.along (p : Position) (n : Nat) : Position := ⟨p.line, p.column + n, p.offset + n⟩

/-- The start of the next line, `n` characters further. -/
def Position.below (p : Position) (n : Nat) : Position := ⟨p.line + 1, 1, p.offset + n⟩

theorem Position.eq_of_parts {p q : Position} (hline : p.line = q.line)
    (hcolumn : p.column = q.column) (hoffset : p.offset = q.offset) : p = q := by
  cases p; cases q; simp_all

theorem Position.along_zero (p : Position) : p.along 0 = p := by
  simp [along]

theorem Position.along_along (p : Position) (m n : Nat) : (p.along m).along n = p.along (m + n) := by
  refine eq_of_parts rfl ?_ ?_ <;> simp only [along] <;> omega

theorem Position.along_below (p : Position) (m n : Nat) : (p.along m).below n = p.below (m + n) := by
  refine eq_of_parts rfl rfl ?_
  simp only [along, below]
  omega

theorem Position.nextColumn_eq (p : Position) : p.nextColumn = p.along 1 := rfl

/-! ## Places by index -/

/-- The index of the line that holds a character, and the index of the character in that line. -/
def Text.locate : List (List Char) → Nat → Nat × Nat
  | [], n => (0, n)
  | line :: rest, n =>
    if n < line.length then (0, n)
    else
      let (k, i) := locate rest (n - line.length)
      (k + 1, i)

theorem Text.locate_append {lead : List (List Char)} {line : List Char} {trail : List (List Char)}
    {i : Nat} (hi : i < line.length) :
    locate (lead ++ line :: trail) (lead.flatten.length + i) = (lead.length, i) := by
  induction lead with
  | nil => simp [locate, hi]
  | cons first lead ih =>
    have hnot : ¬ (first :: lead).flatten.length + i < first.length := by simp; omega
    have hrest : (first :: lead).flatten.length + i - first.length = lead.flatten.length + i := by
      simp; omega
    rw [List.cons_append, locate, if_neg hnot, hrest, ih]
    rfl

/-- The position of the character with a given index. -/
def Position.ofIndex (source : List Char) (n : Nat) : Position :=
  let (k, i) := locate (splitLines source) n
  ⟨k + 1, i + 1, n⟩

theorem Position.ofIndex_append {source : List Char} {lead trail : List (List Char)}
    {line : List Char} (h : splitLines source = lead ++ line :: trail) {i : Nat}
    (hi : i < line.length) :
    Position.ofIndex source (lead.flatten.length + i) =
      ⟨lead.length + 1, i + 1, lead.flatten.length + i⟩ := by
  unfold ofIndex
  rw [h, locate_append hi]
  simp

theorem take_cons_drop {α : Type} {items : List α} {k : Nat} {x : α} (h : items[k]? = some x) :
    items = items.take k ++ x :: items.drop (k + 1) ∧ (items.take k).length = k := by
  obtain ⟨hk, rfl⟩ := List.getElem?_eq_some_iff.1 h
  refine ⟨?_, List.length_take_of_le (by omega)⟩
  rw [← List.drop_eq_getElem_cons hk, List.take_append_drop]

/-- Every character of a text stands in one of its lines. -/
theorem exists_line_around {lines : List (List Char)} {before after : List Char} {x : Char}
    (h : lines.flatten = before ++ x :: after) : ∃ lead head tail trail,
      lines = lead ++ (head ++ x :: tail) :: trail ∧ before = lead.flatten ++ head := by
  induction lines generalizing before with
  | nil => simp at h
  | cons line lines ih =>
    have hnext : ∀ before', before = line ++ before' → lines.flatten = before' ++ x :: after →
        ∃ lead head tail trail, line :: lines = lead ++ (head ++ x :: tail) :: trail ∧
          before = lead.flatten ++ head := by
      rintro before' rfl hrest
      obtain ⟨lead, head, tail, trail, rfl, rfl⟩ := ih hrest
      exact ⟨line :: lead, head, tail, trail, rfl, by simp⟩
    rw [List.flatten_cons] at h
    rcases List.append_eq_append_iff.1 h with ⟨before', hbefore, hrest⟩ | ⟨tail, hline, hrest⟩
    · exact hnext before' hbefore hrest
    · cases tail with
      | nil => exact hnext [] (by simpa using hline.symm) (by simpa using hrest.symm)
      | cons y tail =>
        obtain ⟨rfl, _⟩ := List.cons.inj hrest
        exact ⟨[], before, tail, lines, by rw [hline]; rfl, rfl⟩

/-- Every index of a text lies in one of its lines. -/
theorem exists_line_at {lines : List (List Char)} {n : Nat} {x : Char}
    (h : lines.flatten[n]? = some x) : ∃ lead head tail trail,
      lines = lead ++ (head ++ x :: tail) :: trail ∧ n = lead.flatten.length + head.length := by
  obtain ⟨hsplit, hn⟩ := take_cons_drop h
  obtain ⟨lead, head, tail, trail, hlines, hbefore⟩ := exists_line_around hsplit
  exact ⟨lead, head, tail, trail, hlines, by rw [← hn, hbefore, List.length_append]⟩

/-! ## Over one line -/

namespace Cursor

theorem read_plain {c : Char} (hc : c ≠ '\n' ∧ c ≠ '\r') (rest : List Char) (p : Position) :
    read ⟨c :: rest, p⟩ = ⟨rest, p.along 1⟩ := by
  have hends : endsLine (c :: rest) = false := by simp [endsLine, hc.1, hc.2]
  simp [read, hends, Position.nextColumn_eq]

theorem advance_plain {body : List Char} (h : IsPlain body) (rest : List Char) (p : Position)
    {n : Nat} (hn : n ≤ body.length) :
    advance ⟨body ++ rest, p⟩ n = ⟨(body ++ rest).drop n, p.along n⟩ := by
  induction body generalizing p n with
  | nil =>
    obtain rfl : n = 0 := by simpa using hn
    rw [Position.along_zero]; rfl
  | cons c body ih =>
    obtain ⟨hc, plain⟩ := isPlain_cons.1 h
    cases n with
    | zero => rw [Position.along_zero]; rfl
    | succ n =>
      rw [List.cons_append, advance, read_plain hc, ih plain _ (by simpa using hn),
        Position.along_along, Nat.add_comm 1 n]
      rfl

theorem advance_nil (p : Position) (n : Nat) : advance ⟨[], p⟩ n = ⟨[], p.along n⟩ := by
  induction n generalizing p with
  | zero => rw [Position.along_zero]; rfl
  | succ n ih =>
    have hread : read ⟨[], p⟩ = ⟨[], p.along 1⟩ := rfl
    rw [advance, hread, ih, Position.along_along, Nat.add_comm 1 n]

/-- Inside a line ending the cursor is still on the line, and after it on the next one. -/
theorem advance_break {b rest : List Char} (h : IsBreak b rest) (p : Position) :
    advance ⟨b ++ rest, p⟩ b.length = ⟨rest, p.below b.length⟩ ∧
      ∀ n < b.length, (advance ⟨b ++ rest, p⟩ n).position = p.along n := by
  cases h with
  | lf =>
    refine ⟨rfl, fun n hn => ?_⟩
    obtain rfl : n = 0 := by simpa using hn
    rw [Position.along_zero]; rfl
  | crlf =>
    have hread : read ⟨'\r' :: '\n' :: rest, p⟩ = ⟨'\n' :: rest, p.along 1⟩ := rfl
    refine ⟨?_, fun n hn => ?_⟩
    · show advance (read ⟨'\r' :: '\n' :: rest, p⟩) 1 = ⟨rest, p.below 2⟩
      rw [hread, ← Position.along_below p 1 1]; rfl
    · obtain rfl | rfl : n = 0 ∨ n = 1 := by simp at hn; omega
      · rw [Position.along_zero]; rfl
      · show (read ⟨'\r' :: '\n' :: rest, p⟩).position = p.along 1
        rw [hread]
  | cr apart =>
    have hends : endsLine ('\r' :: rest) = true := by simp [endsLine, apart]
    have hread : read ⟨'\r' :: rest, p⟩ = ⟨rest, p.nextLine⟩ := by simp [read, hends]
    refine ⟨?_, fun n hn => ?_⟩
    · show read ⟨'\r' :: rest, p⟩ = ⟨rest, p.below 1⟩
      rw [hread]; rfl
    · obtain rfl : n = 0 := by simpa using hn
      rw [Position.along_zero]; rfl

/-- **Over a line with an ending**: along its characters, then to the start of the next line. -/
theorem advance_closed {body b rest : List Char} (plain : IsPlain body) (ending : IsBreak b rest)
    (p : Position) :
    advance ⟨body ++ b ++ rest, p⟩ (body ++ b).length = ⟨rest, p.below (body ++ b).length⟩ ∧
      ∀ n < (body ++ b).length, (advance ⟨body ++ b ++ rest, p⟩ n).position = p.along n := by
  have hbody : ∀ n ≤ body.length,
      advance ⟨body ++ b ++ rest, p⟩ n = ⟨(body ++ (b ++ rest)).drop n, p.along n⟩ := by
    intro n hn
    rw [List.append_assoc]
    exact advance_plain plain (b ++ rest) p hn
  have hend : advance ⟨body ++ b ++ rest, p⟩ body.length = ⟨b ++ rest, p.along body.length⟩ := by
    rw [hbody _ (Nat.le_refl _), List.drop_left]
  obtain ⟨hnext, hinside⟩ := advance_break ending (p.along body.length)
  rw [List.length_append]
  constructor
  · rw [advance_add, hend, hnext, Position.along_below]
  · intro n hn
    by_cases hle : n ≤ body.length
    · rw [hbody n hle]
    · obtain ⟨m, rfl⟩ : ∃ m, n = body.length + m := ⟨n - body.length, by omega⟩
      rw [advance_add, hend, hinside m (by omega), Position.along_along]

/-- **Over a last line**: along its characters, and on past the end. -/
theorem advance_last {body : List Char} (plain : IsPlain body) (p : Position) (n : Nat) :
    (advance ⟨body, p⟩ n).position = p.along n := by
  have hbody : ∀ m ≤ body.length, advance ⟨body, p⟩ m = ⟨body.drop m, p.along m⟩ := by
    intro m hm
    have h := advance_plain plain [] p hm
    rwa [List.append_nil] at h
  by_cases hle : n ≤ body.length
  · rw [hbody n hle]
  · obtain ⟨m, rfl⟩ : ∃ m, n = body.length + m := ⟨n - body.length, by omega⟩
    rw [advance_add, hbody _ (Nat.le_refl _), List.drop_length, advance_nil, Position.along_along]

/-- Inside any line the cursor stays on it. -/
theorem advance_line {line rest : List Char} (h : IsLine line rest) (p : Position) {n : Nat}
    (hn : n < line.length) : (advance ⟨line ++ rest, p⟩ n).position = p.along n := by
  cases h with
  | closed plain ending => exact (advance_closed plain ending p).2 n hn
  | last plain => rw [List.append_nil]; exact advance_last plain p n

/-! ## Over a whole text -/

/-- **Inside a text**, the line and the column are those of the line that holds the character. -/
theorem position_inside (text : List Char) {p : Position} (hp : p.column = 1) {n : Nat}
    (hn : n < text.length) : ∃ k i line, (splitLines text)[k]? = some line ∧ i < line.length ∧
      n = ((splitLines text).take k).flatten.length + i ∧
      (advance ⟨text, p⟩ n).position = ⟨p.line + k, i + 1, p.offset + n⟩ := by
  induction text using splitLines_induct generalizing p n with
  | nil => simp at hn
  | line line rest hline ih =>
    rw [splitLines_append hline]
    by_cases hlt : n < line.length
    · refine ⟨0, n, line, rfl, hlt, by simp, ?_⟩
      rw [advance_line hline p hlt]
      refine Position.eq_of_parts ?_ ?_ ?_ <;> simp [Position.along, hp, Int.add_comm]
    · cases hline with
      | last => rw [List.append_nil] at hn; exact absurd hn hlt
      | @closed body b _ plain ending =>
        obtain ⟨hnext, _⟩ := advance_closed plain ending p
        generalize body ++ b = line at *
        obtain ⟨m, rfl⟩ : ∃ m, n = line.length + m := ⟨n - line.length, by omega⟩
        have hm : m < rest.length := by rw [List.length_append] at hn; omega
        obtain ⟨k, i, next, hk, hi, hmi, hpos⟩ := ih (p := p.below line.length) rfl hm
        refine ⟨k + 1, i, next, by simpa using hk, hi, ?_, ?_⟩
        · rw [List.take_succ_cons, List.flatten_cons, List.length_append, hmi]
          omega
        · rw [advance_add, hnext, hpos]
          refine Position.eq_of_parts ?_ rfl ?_ <;> simp only [Position.below] <;> omega

/-- **Past the end of a text**, the line is the one after its last line ending, and the columns go
on from the start of that line. -/
theorem position_past (text : List Char) {p : Position} (hp : p.column = 1) {n : Nat}
    (hn : text.length ≤ n) :
    (EndsClosed text → (advance ⟨text, p⟩ n).position.line = p.line + (splitLines text).length ∧
      (advance ⟨text, p⟩ n).position.column = n - text.length + 1) ∧
    (¬ EndsClosed text →
      (advance ⟨text, p⟩ n).position.line + 1 = p.line + (splitLines text).length ∧
      (advance ⟨text, p⟩ n).position.column = n - (splitLines text).dropLast.flatten.length + 1) := by
  induction text using splitLines_induct generalizing p n with
  | nil =>
    refine ⟨fun _ => ?_, fun hopen => absurd (Or.inl rfl) hopen⟩
    rw [advance_nil]
    simp only [Position.along, hp, splitLines, List.length_nil]
    omega
  | line line rest hline ih =>
    rw [splitLines_append hline]
    cases hline with
    | last plain nonempty =>
      refine ⟨fun hclosed => ?_, fun _ => ?_⟩
      · rw [List.append_nil] at hclosed
        exact absurd hclosed (not_endsClosed_last plain nonempty)
      · rw [List.append_nil, advance_last plain]
        have hnone : (line :: splitLines []).dropLast.flatten.length = 0 := rfl
        rw [hnone]
        simp only [Position.along, hp, splitLines, List.length_cons, List.length_nil]
        omega
    | @closed body b _ plain ending =>
      obtain ⟨hnext, _⟩ := advance_closed plain ending p
      have hends : EndsClosed (body ++ b ++ rest) ↔ EndsClosed rest := endsClosed_closed ending
      generalize body ++ b = line at *
      rw [List.length_append] at hn
      obtain ⟨m, rfl⟩ : ∃ m, n = line.length + m := ⟨n - line.length, by omega⟩
      obtain ⟨hclosed, hopen⟩ := ih (p := p.below line.length) rfl (n := m) (by omega)
      rw [advance_add, hnext, hends, List.length_append, List.length_cons]
      refine ⟨fun h => ?_, fun h => ?_⟩
      · obtain ⟨hl, hc⟩ := hclosed h
        rw [hl, hc]
        simp only [Position.below]
        omega
      · obtain ⟨hl, hc⟩ := hopen h
        have hne : splitLines rest ≠ [] := splitLines_ne_nil (fun hnil => h (Or.inl hnil))
        rw [List.dropLast_cons_of_ne_nil hne, List.flatten_cons, List.length_append, hl, hc]
        simp only [Position.below]
        omega

/-- **The position of a cursor is that of the index it has moved to.** -/
theorem advance_position {source : List Char} {n : Nat} (hn : n < source.length) :
    ((start source).advance n).position = Position.ofIndex source n := by
  obtain ⟨k, i, line, hk, hi, hni, hpos⟩ := position_inside source (p := .start) rfl hn
  obtain ⟨hlines, hlen⟩ := take_cons_drop hk
  have hindex := Position.ofIndex_append hlines hi
  rw [hlen, ← hni] at hindex
  rw [hindex, start, hpos]
  refine Position.eq_of_parts ?_ rfl ?_ <;> simp only [Position.start] <;> omega

/-! ## Reachable cursors -/

/-- `c.Tracks source`: what the cursor shows fits the source and the offset.  The characters shown
are those of the source at the two offsets, if there are any; and the line and the column are those
of the line that holds the offset, or, past the end, of the line that the end is on. -/
structure Tracks (source : List Char) (c : Cursor) : Prop where
  offset_nonneg : 0 ≤ c.offset
  nextOffset_eq : c.nextOffset = c.offset + 1
  current_eq : c.current = source[c.offset.toNat]?
  peek_eq : c.peek = source[c.nextOffset.toNat]?
  inside : c.offset < source.length → ∃ (k i : Nat) (line : List Char),
    (splitLines source)[k]? = some line ∧ i < line.length ∧
      c.offset = ((splitLines source).take k).flatten.length + i ∧
      c.position.line = k + 1 ∧ c.position.column = i + 1
  past_closed : source.length ≤ c.offset → EndsClosed source →
    c.position.line = (splitLines source).length + 1 ∧
      c.position.column = c.offset - source.length + 1
  past_open : source.length ≤ c.offset → ¬ EndsClosed source →
    c.position.line = (splitLines source).length ∧
      c.position.column = c.offset - (splitLines source).dropLast.flatten.length + 1

theorem start_advance_offset (source : List Char) (n : Nat) :
    ((start source).advance n).position.offset = n := by
  rw [advance_offset]
  simp [start, Position.start]

/-- A cursor moved from the start of a source tracks it. -/
theorem advance_tracks (source : List Char) (n : Nat) : Tracks source ((start source).advance n) := by
  have hoffset : ((start source).advance n).offset = n := start_advance_offset source n
  have hrest : ((start source).advance n).rest = source.drop n := advance_rest ..
  refine ⟨by omega, rfl, ?_, ?_, ?_, ?_, ?_⟩
  · rw [current, hrest, hoffset]
    simp
  · have hnext : ((start source).advance n).nextOffset.toNat = n + 1 := by
      rw [nextOffset, hoffset]; omega
    rw [peek, hrest, hnext]
    simp
  · intro hlt
    obtain ⟨k, i, line, hk, hi, hn, hpos⟩ :=
      position_inside source (p := .start) rfl (n := n) (by omega)
    refine ⟨k, i, line, hk, hi, by rw [hoffset]; omega, ?_, ?_⟩
    · rw [start, hpos]; simp only [Position.start]; omega
    · rw [start, hpos]
  · intro hle hclosed
    obtain ⟨hline, hcolumn⟩ :=
      (position_past source (p := .start) rfl (n := n) (by omega)).1 hclosed
    refine ⟨?_, by rw [hoffset]; exact hcolumn⟩
    rw [start, hline, Int.add_comm]
    rfl
  · intro hle hopen
    obtain ⟨hline, hcolumn⟩ :=
      (position_past source (p := .start) rfl (n := n) (by omega)).2 hopen
    refine ⟨?_, by rw [hoffset]; exact hcolumn⟩
    rw [start]
    simp only [Position.start] at hline ⊢
    omega

theorem offset_le_advance (c : Cursor) (n : Nat) : c.offset ≤ (c.advance n).offset := by
  show c.position.offset ≤ (c.advance n).position.offset
  rw [advance_offset]
  omega

/-- A token moves the cursor; at the end of the text nothing does. -/
theorem next_cases (c : Cursor) :
    (c.next.1.kind ≠ .eof ∧ c.offset < c.next.2.offset) ∨
      (c.next.1.kind = .eof ∧ c.next.2.next = c.next) := by
  cases h : c.next? with
  | some found =>
    left
    obtain ⟨t, d⟩ := found
    have hnext : c.next = (t, d) := by unfold next; rw [h]
    obtain ⟨lead, w, rest, k, _, _, hlong, rfl, rfl⟩ := next?_eq_some_iff.1 h
    have hpos : 0 < w.length := hlong.known.length_pos
    rw [hnext]
    refine ⟨hlong.known.kind_ne_eof, ?_⟩
    show c.position.offset < (c.advance (lead.length + w.length)).position.offset
    rw [advance_offset]
    omega
  | none =>
    right
    have hnext : c.next = (c.skipSpaces.endToken, c.skipSpaces) := by unfold next; rw [h]
    have hrest : c.skipSpaces.rest = [] := by
      rw [skipSpaces_rest]
      exact List.dropWhile_eq_nil_iff.2 (next?_eq_none_iff.1 h)
    rw [hnext]
    exact ⟨rfl, next_of_rest_nil hrest⟩

/-- **After every run of requests the cursor tracks its source.**  No request moves it back; the
next token moves it on, unless it is the end token, and then the next one changes nothing; and
runs that lead to one offset lead to one cursor. -/
theorem performAll_tracks (source : List Char) (moves : List Move) :
    let c := ((start source).performAll moves).2
    Tracks source c ∧ (∀ m, c.offset ≤ (c.perform m).2.offset) ∧
      (c.next.1.kind ≠ .eof → c.offset < c.next.2.offset) ∧
      (c.next.1.kind = .eof → c.next.2.next = c.next) ∧
      (∀ others, ((start source).performAll others).2.offset = c.offset →
        ((start source).performAll others).2 = c) := by
  obtain ⟨n, hn⟩ := performAll_eq_advance (start source) moves
  intro c
  have hc : c = (start source).advance n := hn
  refine ⟨hc ▸ advance_tracks source n, ?_, ?_, ?_, ?_⟩
  · intro m
    obtain ⟨k, hk⟩ := perform_eq_advance c m
    rw [hk]
    exact offset_le_advance c k
  · intro hkind
    rcases next_cases c with ⟨_, hlt⟩ | ⟨heof, _⟩
    · exact hlt
    · exact absurd heof hkind
  · intro hkind
    rcases next_cases c with ⟨hne, _⟩ | ⟨_, hsame⟩
    · exact absurd hkind hne
    · exact hsame
  · intro others hoffset
    obtain ⟨m, hm⟩ := performAll_eq_advance (start source) others
    have hdm : (((start source).advance m).position.offset : Int) = m :=
      start_advance_offset source m
    have hcn : (((start source).advance n).position.offset : Int) = n :=
      start_advance_offset source n
    have hsame : m = n := by
      have heq : ((start source).advance m).position.offset =
          ((start source).advance n).position.offset := by
        rw [← hm, ← hc]; exact hoffset
      omega
    rw [hm, hsame, hc]

/-- A cursor that stopped between a carriage return and a line feed is still on the first line. -/
theorem performAll_tracks_inside_break :
    let source := "a\r\nb".toList
    let c := ((start source).performAll [.word, .read]).2
    c.position = ⟨1, 3, 2⟩ ∧ c.next.1.kind ≠ .eof ∧ Tracks source c ∧
      c.offset < c.next.2.offset ∧ ((start source).performAll [.next, .peek, .read]).2 = c := by
  intro source c
  obtain ⟨htracks, _, hnext, _, hsame⟩ := performAll_tracks source [.word, .read]
  exact ⟨by decide, by decide, htracks, hnext (by decide), hsame [.next, .peek, .read] (by decide)⟩

end Cursor

end Lexline
