import Lexline.Proofs.Alphabet
import Lexline.Proofs.LineByLine
import Lexline.Proofs.Records

/-!
# Reports place tokens in the whole source

A report on a token of some lines of a source is given the whole source and the number of lines
before these lines.  It counts the offset of the token anew, from the lengths of the lines; that is
where the token stands in the source.

* `lineRange` — the text of some lines of a source.
* `scan_append_lines`, `scan_segment_getElem?` — the tokens of neighbouring lines, in those of the
  source.
* `Report.write_eq_ok` — a report on a place of a source can be written.
* `Report.ofToken_tracks` — a report keeps every position that a cursor of the source can show.
* `Report.ofToken_scan` — a report on a token of some lines moves it by what is before them.
* `reports_index_source` — **the position of a report is that of the token in the whole source**.
-/

namespace Lexline

open Text

/-- The text of the lines of a source from index `i` on and before index `j`. -/
def lineRange (source : List Char) (i j : Nat) : List Char :=
  (((splitLines source).take j).drop i).flatten

/-- Some lines of a source, with the lines around them. -/
theorem splitLines_range (source : List Char) {i j : Nat} (hij : i ≤ j) :
    splitLines source = (splitLines source).take i ++
      (((splitLines source).take j).drop i ++ (splitLines source).drop j) := by
  have hlead : (splitLines source).take i = ((splitLines source).take j).take i := by
    rw [List.take_take, Nat.min_eq_left hij]
  rw [hlead, ← List.append_assoc, List.take_append_drop, List.take_append_drop]

/-! ## Tokens of neighbouring lines -/

theorem splitLines_behind {source : List Char} {lead trail : List (List Char)}
    (h : splitLines source = lead ++ trail) : splitLines trail.flatten = trail :=
  splitLines_segment (show splitLines source = lead ++ (trail ++ []) by rw [h, List.append_nil])

/-- **The tokens of a source are those of its first lines and those of the others**, moved by what
is before them. -/
theorem scan_append_lines {source : List Char} {lead trail : List (List Char)}
    (h : splitLines source = lead ++ trail) :
    scan source = scan lead.flatten ++
      (scan trail.flatten).map (Token.shift lead.length lead.flatten.length) := by
  have hlead : splitLines lead.flatten = lead :=
    splitLines_segment (show splitLines source = [] ++ (lead ++ trail) from h)
  have htrail : splitLines trail.flatten = trail := splitLines_behind h
  have hrest := Cursor.tokens_lines trail.flatten lead
  rw [htrail, Cursor.tokens_lineStart] at hrest
  rw [hrest, scan_eq_lines source, h, List.zipIdx_append, List.flatMap_append, Nat.zero_add,
    scan_eq_lines lead.flatten, hlead]
  refine congrArg (· ++ _) ?_
  rw [List.flatMap_def, List.flatMap_def]
  refine congrArg List.flatten (List.map_congr_left ?_)
  rintro ⟨line, k⟩ hmem
  -- before a line of the first part there are only lines of that part
  have hk : k ≤ lead.length := Nat.le_of_lt (List.snd_lt_of_mem_zipIdx hmem)
  simp only [List.take_append_of_le_length hk]

/-- The tokens of some lines, in those of the source. -/
theorem scan_segment_getElem? {source : List Char} {lead chunk trail : List (List Char)}
    (h : splitLines source = lead ++ (chunk ++ trail)) {n : Nat} {t : Token}
    (ht : (scan chunk.flatten)[n]? = some t) :
    (scan source)[(scan lead.flatten).length + n]? =
      some (t.shift lead.length lead.flatten.length) := by
  obtain ⟨hn, _⟩ := List.getElem?_eq_some_iff.1 ht
  rw [scan_append_lines h, scan_append_lines (splitLines_behind h), List.map_append,
    List.getElem?_append_right (by omega), Nat.add_sub_cancel_left,
    List.getElem?_append_left (by rwa [List.length_map]), List.getElem?_map, ht]
  rfl

/-! ## Reports -/

/-- No line and no column is beyond the number of characters before it. -/
theorem Cursor.start_advance_bounds (source : List Char) (n : Nat) :
    let p := ((Cursor.start source).advance n).position
    (1 ≤ p.line ∧ p.line ≤ n + 1) ∧ (1 ≤ p.column ∧ p.column ≤ n + 1) := by
  induction n with
  | zero => simp [advance, start, Position.start]
  | succ n ih =>
    rw [advance_succ, read]
    split <;> simp only [Position.nextLine, Position.nextColumn] <;> omega

namespace Report

/-- No limit is met by a report on a place of a source whose characters can be counted. -/
theorem write_eq_ok {r : Report} {source : List Char} {n : Nat} (hn : n ≤ source.length)
    (hr : r.position = ((Cursor.start source).advance n).position)
    (hsize : (source.length : Int) < Limit.countBound) (filename : String) :
    r.write filename = .ok (r.render filename) := by
  obtain ⟨hline, hcolumn⟩ := Cursor.start_advance_bounds source n
  rw [← hr] at hline hcolumn
  have hbound : Limit.countBound = 9223372036854775808 := by decide
  have hcounts : Limit.counts (r.position.column - 1) = true := by
    simp only [Limit.counts, Bool.and_eq_true, decide_eq_true_eq]
    omega
  have hnumeral : Limit.hasNumeral r.position.line = true := by
    refine Limit.hasNumeral_of_natAbs_lt (k := 20) (by decide) ?_
    have hpow : Nat.pow 10 20 = 100000000000000000000 := by decide
    omega
  unfold write
  rw [hcounts, hnumeral]
  rfl

/-- **A report keeps every position that a cursor of the source can show.** -/
theorem ofToken_tracks {source : List Char} {c : Cursor} (h : c.Tracks source) (k : Kind)
    (literal : String) :
    (ofToken ⟨k, literal, some c.position⟩ source 0).position = c.position := by
  -- the characters before the line are counted; the rest is in the column
  have hcount : ∀ m : Nat, c.position.line = m + 1 →
      c.offset = ((splitLines source).take m).flatten.length + c.position.column - 1 →
      (ofToken ⟨k, literal, some c.position⟩ source 0).position = c.position := by
    intro m hline hoffset
    refine Position.eq_of_parts (Int.add_zero _) rfl ?_
    have hm : c.position.line + 0 - 1 = m := by omega
    show ((upTo (c.position.line + 0 - 1) (splitLines source)).flatten.length : Int) +
      c.position.column - 1 = c.offset
    rw [hm, upTo_natCast, hoffset]
  by_cases hinside : c.offset < source.length
  · obtain ⟨m, i, line, _, _, hoffset, hline, hcolumn⟩ := h.inside hinside
    exact hcount m hline (by omega)
  by_cases hclosed : EndsClosed source
  · obtain ⟨hline, hcolumn⟩ := h.past_closed (by omega) hclosed
    refine hcount _ hline ?_
    rw [List.take_length, flatten_splitLines]
    omega
  · obtain ⟨hline, hcolumn⟩ := h.past_open (by omega) hclosed
    have hpos : 0 < (splitLines source).length :=
      List.length_pos_iff.2 (splitLines_ne_nil (fun hnil => hclosed (Or.inl hnil)))
    refine hcount ((splitLines source).length - 1) (by omega) ?_
    rw [← List.dropLast_eq_take]
    omega

/-- **A report on a token of some lines moves it by what is before them.** -/
theorem ofToken_scan {source : List Char} {lead chunk trail : List (List Char)}
    (h : splitLines source = lead ++ (chunk ++ trail)) {t : Token} (ht : t ∈ scan chunk.flatten) :
    t.shift lead.length lead.flatten.length =
      ⟨t.kind, t.literal, some (ofToken t source lead.length).position⟩ := by
  obtain ⟨k, literal, position⟩ := t
  obtain ⟨n, hn, hposition⟩ := Cursor.tokens_position ht
  obtain rfl : position = some (Position.ofIndex chunk.flatten n) :=
    hposition.trans (congrArg some (Cursor.advance_position hn))
  -- line and column are moved by definition; the offset is the one that was counted anew
  have hoffset := congrArg (fun r => r.position.offset) (ofToken_segment h hn k literal)
  have hplace : (Position.ofIndex chunk.flatten n).shift lead.length lead.flatten.length =
      (ofToken ⟨k, literal, some (Position.ofIndex chunk.flatten n)⟩ source
        lead.length).position := by
    refine Position.eq_of_parts rfl rfl ?_
    rw [hoffset]
    show (n : Int) + lead.flatten.length = ((lead.flatten.length + n : Nat) : Int)
    omega
  rw [← hplace]
  rfl

end Report

theorem tokenize_position {source : List Char} {t : Token} (ht : t ∈ tokenize source) :
    ∃ n ≤ source.length, t.position = some ((Cursor.start source).advance n).position := by
  rw [tokenize, Cursor.tokenize_eq] at ht
  rcases List.mem_append.1 ht with ht | ht
  · obtain ⟨n, hn, hposition⟩ := Cursor.tokens_position ht
    exact ⟨n, Nat.le_of_lt hn, hposition⟩
  · obtain rfl := List.mem_singleton.1 ht
    exact ⟨source.length, Nat.le_refl _, rfl⟩

/-- A token that is not the end token stands at the same index without it. -/
theorem scan_getElem? {source : List Char} {n : Nat} {t : Token}
    (h : (tokenize source)[n]? = some t) (ht : t.kind ≠ .eof) : (scan source)[n]? = some t := by
  obtain ⟨last, hlast, htokens⟩ := tokenize_eq_scan source
  rw [htokens] at h
  by_cases hn : n < (scan source).length
  · rwa [List.getElem?_append_left hn] at h
  · rw [List.getElem?_append_right (by omega)] at h
    obtain rfl := List.mem_singleton.1 (List.mem_of_getElem? h)
    exact absurd hlast ht

theorem tokenize_getElem? {source : List Char} {n : Nat} {t : Token}
    (h : (scan source)[n]? = some t) : (tokenize source)[n]? = some t := by
  obtain ⟨last, _, htokens⟩ := tokenize_eq_scan source
  obtain ⟨hn, _⟩ := List.getElem?_eq_some_iff.1 h
  rw [htokens, List.getElem?_append_left hn, h]

/-- A token of a source is what the source shows at its offset. -/
theorem scan_spelled {source : List Char} {t : Token} {p : Position} (ht : t ∈ scan source)
    (hp : t.position = some p) :
    0 ≤ p.offset ∧
      (source.drop p.offset.toNat).take t.literal.toList.length = t.literal.toList := by
  obtain ⟨n, _, hposition, hspelled⟩ := Cursor.tokens_spelled ht
  obtain rfl := Option.some.inj (hp.symm.trans hposition)
  rw [Cursor.start_advance_offset, Int.toNat_natCast]
  exact ⟨by omega, (List.prefix_iff_eq_take.1 hspelled).symm⟩

/-- A report that places a token as the source does can be written. -/
theorem Report.write_of_mem_tokenize {source : List Char} {t : Token} {r : Report}
    (ht : t ∈ tokenize source) (hr : t.position = some r.position)
    (hsize : (source.length : Int) < Limit.countBound) (filename : String) :
    r.write filename = .ok (r.render filename) := by
  obtain ⟨n, hn, hposition⟩ := tokenize_position ht
  exact write_eq_ok hn (Option.some.inj (hr.symm.trans hposition)) hsize filename

/-- **The position of a report is that of the token in the whole source.**  The `n`-th token of
some lines of a source is, in the source, the `n`-th after the tokens of the lines before; the
report on it gives the line, the column and the offset at which it stands there, and the source
shows its literal at that offset.  A report on any token of the source itself, the end token
included, keeps its position.  And no limit keeps these reports from being written, unless the
source has more characters than can be counted. -/
theorem reports_index_source (source : List Char) {i j : Nat} (hij : i ≤ j)
    (hj : j ≤ (splitLines source).length) :
    (∀ n t, (tokenize (lineRange source i j))[n]? = some t → t.kind ≠ .eof →
      let r := Report.ofToken t source i
      (tokenize source)[(scan (lineRange source 0 i)).length + n]? =
          some ⟨t.kind, t.literal, some r.position⟩ ∧
        0 ≤ r.position.offset ∧
        (source.drop r.position.offset.toNat).take t.literal.toList.length = t.literal.toList ∧
        ((source.length : Int) < Limit.countBound →
          ∀ filename, r.write filename = .ok (r.render filename))) ∧
    ∀ t ∈ tokenize source,
      let r := Report.ofToken t source 0
      some r.position = t.position ∧
        ((source.length : Int) < Limit.countBound →
          ∀ filename, r.write filename = .ok (r.render filename)) := by
  constructor
  · intro n t hn ht r
    have hscan := scan_getElem? hn ht
    have hlines := splitLines_range source hij
    have hmoved := Report.ofToken_scan hlines (List.mem_of_getElem? hscan)
    have hwhole := scan_segment_getElem? hlines hscan
    rw [hmoved, List.length_take_of_le (by omega)] at hwhole
    have hplaced := tokenize_getElem? hwhole
    obtain ⟨hoffset, hspelled⟩ := scan_spelled (List.mem_of_getElem? hwhole) rfl
    exact ⟨hplaced, hoffset, hspelled,
      Report.write_of_mem_tokenize (List.mem_of_getElem? hplaced) rfl⟩
  · intro t ht r
    obtain ⟨k, literal, position⟩ := t
    obtain ⟨n, _, hposition⟩ := tokenize_position ht
    obtain rfl : position = some _ := hposition
    have hkept : r.position = _ := Report.ofToken_tracks (Cursor.advance_tracks source n) k literal
    have hsome : some r.position = some _ := congrArg some hkept
    exact ⟨hsome, Report.write_of_mem_tokenize ht hsome.symm⟩

/-- A character on the second of two lines, below a line that ends in a carriage return and a line
feed. -/
theorem reports_index_third_line :
    let source := "a\r\nb\r@\n".toList
    let t : Token := ⟨.illegal, "@", some ⟨2, 1, 2⟩⟩
    (splitLines source).length = 3 ∧ lineRange source 1 3 = "b\r@\n".toList ∧
      (tokenize (lineRange source 1 3))[1]? = some t ∧
      (Report.ofToken t source 1).position = ⟨3, 1, 5⟩ ∧
      (tokenize source)[2]? = some ⟨.illegal, "@", some ⟨3, 1, 5⟩⟩ ∧
      (source.drop 5).take t.literal.toList.length = t.literal.toList ∧
      (Report.ofToken t source 1).write "a.ni" =
        .ok ((Report.ofToken t source 1).render "a.ni") := by
  intro source t
  have hlength : (splitLines source).length = 3 := by decide
  have hrange : lineRange source 1 3 = "b\r@\n".toList := by decide
  have hfirst : scan (lineRange source 0 1) = [⟨.ident, "a", some .start⟩] := by
    have hnext : (Cursor.start (lineRange source 0 1)).next? =
        some (⟨.ident, "a", some .start⟩, ⟨['\r', '\n'], ⟨1, 2, 1⟩⟩) := by decide
    rw [scan, Cursor.tokens_of_some hnext, Cursor.tokens_of_none (by decide)]
  have htoken : (tokenize (lineRange source 1 3))[1]? = some t := by
    have hnext : (Cursor.start (lineRange source 1 3)).next? =
        some (⟨.ident, "b", some .start⟩, ⟨['\r', '@', '\n'], ⟨1, 2, 1⟩⟩) := by decide
    have hsecond : (⟨['\r', '@', '\n'], ⟨1, 2, 1⟩⟩ : Cursor).next? =
        some (t, ⟨['\n'], ⟨2, 2, 3⟩⟩) := by decide
    refine tokenize_getElem? ?_
    rw [scan, Cursor.tokens_of_some hnext, Cursor.tokens_of_some hsecond]
    rfl
  have hposition : (Report.ofToken t source 1).position = ⟨3, 1, 5⟩ := by decide
  obtain ⟨hplaced, _, hspelled, hwritten⟩ :=
    (reports_index_source source (show 1 ≤ 3 by decide) (by rw [hlength])).1 1 t htoken (by decide)
  rw [hfirst, Int.natCast_one, hposition] at hplaced
  rw [Int.natCast_one, hposition] at hspelled
  exact ⟨hlength, hrange, htoken, hposition, hplaced, hspelled, hwritten (by decide) "a.ni"⟩

end Lexline
