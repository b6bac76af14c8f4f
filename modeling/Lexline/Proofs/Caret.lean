import Lexline.Proofs.Reports
import Lexline.Proofs.TextRecords

/-!
# The caret under an illegal character

A report draws the line with the illegal character next to its number, and a caret below it.

* `Report.exists_sourceLine` — the line that is shown is the whole line of the source but for its
  ending.
* `Report.rows`, `Report.splitOn_render` — the five lines of a report.
* `PointsAt` — what the lines of a report show of the character that it is about.
* `Report.rows_point` — they do so for every character of a line.
* `Report.ofToken_illegal` — a report on an illegal token of some lines is one on a character of
  the source.
* `caret_points_at_culprit` — **the caret of a report stands under the illegal character**.
-/

namespace Lexline

open Text

/-! ## Lines without their endings -/

/-- The endings that a line can have; a last line may have none. -/
def lineEndings : List (List Char) := [[], ['\n'], ['\r', '\n'], ['\r']]

theorem dropTrailing_append {p : Char → Bool} {body ending : List Char}
    (hbody : ∀ x ∈ body, p x = false) (hending : ∀ x ∈ ending, p x = true) :
    dropTrailing p (body ++ ending) = body := by
  have hrun : ∀ x ∈ ending.reverse, p x = true := fun x hx => hending x (List.mem_reverse.1 hx)
  have hnext : ∀ x ∈ body.reverse.head?, p x = false :=
    fun x hx => hbody x (List.mem_reverse.1 (List.mem_of_head? hx))
  unfold dropTrailing
  rw [List.reverse_append, (takeWhile_run hrun hnext).2, List.reverse_reverse]

/-- Line feeds and then carriage returns are removed, and nothing else of a line. -/
theorem dropTrailing_ending {body returns feeds : List Char} (plain : IsPlain body)
    (hreturns : ∀ x ∈ returns, x = '\r') (hfeeds : ∀ x ∈ feeds, x = '\n') :
    dropTrailing (· == '\r') (dropTrailing (· == '\n') (body ++ returns ++ feeds)) = body := by
  have hfront : ∀ x ∈ body ++ returns, (x == '\n') = false := by
    intro x hx
    rcases List.mem_append.1 hx with hx | hx
    · simp [(plain x hx).1]
    · obtain rfl := hreturns x hx
      decide
  have hbody : ∀ x ∈ body, (x == '\r') = false := fun x hx => by simp [(plain x hx).2]
  rw [dropTrailing_append hfront (fun x hx => by simp [hfeeds x hx]),
    dropTrailing_append hbody (fun x hx => by simp [hreturns x hx])]

/-- Every line ends in a carriage return or none, and then a line feed or none. -/
theorem Text.IsLine.exists_marks {line rest : List Char} (h : IsLine line rest) :
    ∃ body returns feeds, line = body ++ returns ++ feeds ∧ IsPlain body ∧
      (returns = [] ∨ returns = ['\r']) ∧ (feeds = [] ∨ feeds = ['\n']) := by
  cases h with
  | last plain _ => exact ⟨line, [], [], by simp, plain, .inl rfl, .inl rfl⟩
  | @closed body _ _ plain ending =>
    cases ending with
    | lf => exact ⟨body, [], ['\n'], by simp, plain, .inl rfl, .inr rfl⟩
    | crlf => exact ⟨body, ['\r'], ['\n'], by simp, plain, .inr rfl, .inr rfl⟩
    | cr => exact ⟨body, ['\r'], [], by simp, plain, .inr rfl, .inl rfl⟩

/-- **Every line is shown without its ending**, and with all the rest. -/
theorem Text.IsLine.exists_ending {line rest : List Char} (h : IsLine line rest) :
    ∃ body, ∃ ending ∈ lineEndings, line = body ++ ending ∧ IsPlain body ∧
      dropTrailing (· == '\r') (dropTrailing (· == '\n') line) = body := by
  obtain ⟨body, returns, feeds, rfl, plain, hreturns, hfeeds⟩ := h.exists_marks
  refine ⟨body, returns ++ feeds, ?_, List.append_assoc .., plain,
    dropTrailing_ending plain ?_ ?_⟩
  · rcases hreturns with rfl | rfl <;> rcases hfeeds with rfl | rfl <;> decide
  · rcases hreturns with rfl | rfl <;> simp
  · rcases hfeeds with rfl | rfl <;> simp

namespace Report

theorem exists_sourceLine {source line : List Char} {before after : List (List Char)}
    (h : splitLines source = before ++ line :: after) :
    ∃ ending ∈ lineEndings, line = sourceLine source (before.length + 1) ++ ending ∧
      IsPlain (sourceLine source (before.length + 1)) := by
  obtain ⟨rest, hline⟩ := mem_splitLines (show line ∈ splitLines source by rw [h]; simp)
  obtain ⟨body, ending, hending, hwhole, plain, hshown⟩ := hline.exists_ending
  have hbody : sourceLine source (before.length + 1) = body := by
    have hindex : ((before.length : Int) + 1 - 1).toNat = before.length := by omega
    have hfound : (splitLines source).getD before.length [] = line := by simp [h]
    unfold sourceLine
    rw [if_neg (by omega), hindex, hfound]
    exact hshown
  rw [hbody]
  exact ⟨ending, hending, hwhole, plain⟩

/-! ## The rows of a report -/

/-- The blanks in front of the bars of a report. -/
def gutter (r : Report) : List Char := List.replicate ((numeral r.position.line).length + 1) ' '

/-- The five lines of a report, one by one. -/
def rows (r : Report) (filename : String) : List (List Char) :=
  ["error: ".toList ++ r.message.toList,
    r.gutter ++ "--> ".toList ++ filename.toList ++
      ':' :: (numeral r.position.line ++ ':' :: numeral r.position.column),
    r.gutter ++ ['|'],
    numeral r.position.line ++ " | ".toList ++ sourceLine r.source r.position.line,
    r.gutter ++ "| ".toList ++ List.replicate (r.position.column - 1).toNat ' ' ++ ['^']]

theorem render_eq_rows (r : Report) (filename : String) :
    r.render filename = ['\n'].intercalate (r.rows filename) := by
  unfold render rows gutter
  simp only [List.intercalate_cons_cons, List.intercalate_singleton, List.append_assoc,
    List.cons_append, List.nil_append]

theorem gutter_visible (r : Report) : IsVisible r.gutter := by
  intro c hc
  obtain rfl := List.eq_of_mem_replicate hc
  decide

/-- **The lines of a report are its rows**, if nothing that it shows spans lines. -/
theorem splitOn_render (r : Report) {filename : String} (hmessage : '\n' ∉ r.message.toList)
    (hname : '\n' ∉ filename.toList) (hline : '\n' ∉ sourceLine r.source r.position.line) :
    (r.render filename).splitOn '\n' = r.rows filename := by
  have hgutter : '\n' ∉ r.gutter := r.gutter_visible.lf_not_mem
  have hnumber : ∀ n, '\n' ∉ numeral n := fun n => (isVisible_numeral n).lf_not_mem
  have hrows : ∀ row ∈ r.rows filename, '\n' ∉ row := by
    simp [rows, hmessage, hname, hline, hgutter, hnumber]
  rw [render_eq_rows]
  exact List.splitOn_intercalate '\n' hrows (by simp [rows])

end Report

theorem lf_not_mem_illegalMessage (literal : String) :
    '\n' ∉ (Report.illegalMessage literal).toList := by
  have hquoted : '\n' ∉ Quoted.encode literal.toList := by
    intro hmem
    have hfree := Quoted.encode_boundary literal.toList '\n' hmem
    exact absurd hfree (by decide)
  have hstart : '\n' ∉ "illegal character ".toList := by decide
  unfold Report.illegalMessage
  rw [String.toList_append, List.mem_append]
  rintro (hmem | hmem)
  · exact hstart hmem
  · rw [quote, String.toList_ofList] at hmem
    exact hquoted hmem

/-- `PointsAt source filename x k i pointer bar shown caret`: the lines `pointer`, `bar`, `shown`
and `caret` of a report point at the character `x` of a source, the one with index `i` in the line
with index `k`.  The first names the place.  The bars of the others stand one below the other,
behind the room for the number of the line.  The third shows the number and the whole line without
its ending; and the last ends in a caret, below the character. -/
structure PointsAt (source : List Char) (filename : String) (x : Char) (k i : Nat)
    (pointer bar shown caret : List Char) : Prop where
  place : filename.toList ++ ':' :: (digits (k + 1) ++ ':' :: digits (i + 1)) <:+ pointer
  bars : ∀ row ∈ [bar, shown, caret], row.idxOf? '|' = some ((digits (k + 1)).length + 1)
  line : ∃ body, ∃ ending ∈ lineEndings, (splitLines source)[k]? = some (body ++ ending) ∧
    IsPlain body ∧ shown = digits (k + 1) ++ " | ".toList ++ body ∧ body[i]? = some x
  caret_last : caret.getLast? = some '^'
  caret_below : shown[caret.length - 1]? = some x

theorem idxOf?_append_cons {x : Char} {front : List Char} (h : x ∉ front) (back : List Char) :
    (front ++ x :: back).idxOf? x = some front.length := by
  induction front with
  | nil => simp [List.idxOf?_cons]
  | cons c front ih =>
    have hc : c ≠ x := fun heq => h (by simp [heq])
    have hfront : x ∉ front := fun hmem => h (by simp [hmem])
    simp [List.idxOf?_cons, hc, ih hfront]

/-- A character that ends no line stands in front of the ending of its line. -/
theorem getElem?_body {body ending : List Char} {n : Nat} {x : Char}
    (hending : ending ∈ lineEndings) (hx : x ≠ '\n' ∧ x ≠ '\r')
    (h : (body ++ ending)[n]? = some x) : body[n]? = some x := by
  have hbreaks : lineEndings.all (fun e => e.all (fun y => y == '\n' || y == '\r')) = true := rfl
  by_cases hn : n < body.length
  · rwa [List.getElem?_append_left hn] at h
  · rw [List.getElem?_append_right (by omega)] at h
    have hbreak := List.all_eq_true.1 (List.all_eq_true.1 hbreaks ending hending) x
      (List.mem_of_getElem? h)
    simp [hx.1, hx.2] at hbreak

/-- **A report drawn around a line points at its character.** -/
theorem pointsAt_of_line {source body ending : List Char} {x : Char} {k i : Nat}
    (hline : (splitLines source)[k]? = some (body ++ ending)) (hending : ending ∈ lineEndings)
    (plain : IsPlain body) (hx : body[i]? = some x) (filename : String) :
    let number := digits (k + 1)
    let pad := List.replicate (number.length + 1) ' '
    PointsAt source filename x k i
      (pad ++ "--> ".toList ++ filename.toList ++ ':' :: (number ++ ':' :: digits (i + 1)))
      (pad ++ ['|']) (number ++ " | ".toList ++ body)
      (pad ++ "| ".toList ++ List.replicate i ' ' ++ ['^']) := by
  intro number pad
  have hpad : pad.length = number.length + 1 := List.length_replicate
  have hblank : '|' ∉ pad := by simp [pad]
  have hdigit : '|' ∉ number ++ [' '] := by
    intro hmem
    rcases List.mem_append.1 hmem with hmem | hmem
    · have hrange := toNat_of_mem_digits hmem
      exact absurd hrange (by decide)
    · simp at hmem
  -- a bar stands behind the padding, or behind the number and a blank
  have hpadded : ∀ back, (pad ++ '|' :: back).idxOf? '|' = some (number.length + 1) := by
    intro back
    rw [idxOf?_append_cons hblank, hpad]
  have hnumbered : (number ++ " | ".toList ++ body).idxOf? '|' = some (number.length + 1) := by
    have hshape : number ++ " | ".toList ++ body = (number ++ [' ']) ++ '|' :: ' ' :: body := by
      simp
    rw [hshape, idxOf?_append_cons hdigit, List.length_append]
    rfl
  refine ⟨?_, ?_, ⟨body, ending, hending, hline, plain, rfl, hx⟩, List.getLast?_concat, ?_⟩
  · exact ⟨pad ++ "--> ".toList, by simp [number]⟩
  · intro row hrow
    simp only [List.mem_cons, List.not_mem_nil, or_false] at hrow
    rcases hrow with rfl | rfl | rfl
    · exact hpadded []
    · exact hnumbered
    · rw [List.append_assoc, List.append_assoc]
      exact hpadded (' ' :: (List.replicate i ' ' ++ ['^']))
  · have hindex : (pad ++ "| ".toList ++ List.replicate i ' ' ++ ['^']).length - 1 =
        (number ++ " | ".toList).length + i := by
      simp [hpad]
      omega
    rw [hindex, List.getElem?_append_right (by omega), Nat.add_sub_cancel_left, hx]

/-- **The rows of a report on a character of a line point at it.** -/
theorem Report.rows_point {source head tail : List Char} {x : Char}
    {before after : List (List Char)}
    (h : splitLines source = before ++ (head ++ x :: tail) :: after)
    (hx : x ≠ '\n' ∧ x ≠ '\r') (message : String) (offset : Int) (filename : String) :
    ∃ pointer bar shown caret,
      (⟨message, ⟨before.length + 1, head.length + 1, offset⟩, source⟩ : Report).rows filename =
        ["error: ".toList ++ message.toList, pointer, bar, shown, caret] ∧
      PointsAt source filename x before.length head.length pointer bar shown caret := by
  obtain ⟨ending, hending, hwhole, plain⟩ := exists_sourceLine h
  have hline : (splitLines source)[before.length]? =
      some (sourceLine source (before.length + 1) ++ ending) := by
    rw [h, ← hwhole]
    simp
  have hat : (sourceLine source (before.length + 1))[head.length]? = some x := by
    refine getElem?_body hending hx ?_
    rw [← hwhole]
    simp
  have hindent : ((head.length : Int) + 1 - 1).toNat = head.length := by omega
  refine ⟨_, _, _, _, ?_, pointsAt_of_line hline hending plain hat filename⟩
  unfold rows gutter
  rw [hindent]
  rfl

/-! ## Illegal tokens -/

/-- **A report on an illegal token of some lines is one on a character of the source**, one that no
line ends with. -/
theorem Report.ofToken_illegal {source : List Char} {lead chunk trail : List (List Char)}
    (h : splitLines source = lead ++ (chunk ++ trail)) {t : Token}
    (ht : t ∈ tokenize chunk.flatten) (hkind : t.kind = .illegal) :
    ∃ x n, t.literal = String.ofList [x] ∧ (x ≠ '\n' ∧ x ≠ '\r') ∧ source[n]? = some x ∧
      ofToken t source lead.length = Report.ofForeign source (x, n) := by
  obtain ⟨m, hm⟩ := List.getElem?_of_mem ht
  have hscan := List.mem_of_getElem? (scan_getElem? hm (by rw [hkind]; decide))
  have hillegal : t ∈ (scan chunk.flatten).filter (fun u => u.kind == .illegal) :=
    List.mem_filter.2 ⟨hscan, by rw [hkind]; rfl⟩
  rw [scan, Cursor.tokens_illegal] at hillegal
  obtain ⟨⟨x, n⟩, hforeign, rfl⟩ := List.mem_map.1 hillegal
  obtain ⟨hat, hx⟩ : chunk.flatten[n]? = some x ∧ inAlphabet x = false :=
    mem_foreignChars_iff.1 hforeign
  obtain ⟨hn, _⟩ := List.getElem?_eq_some_iff.1 hat
  have hbreak : x ≠ '\n' ∧ x ≠ '\r' := by
    constructor <;> rintro rfl <;> exact absurd hx (by decide)
  refine ⟨x, lead.flatten.length + n, rfl, hbreak, ?_, ?_⟩
  · have hsource : source = lead.flatten ++ (chunk.flatten ++ trail.flatten) := by
      rw [← List.flatten_append, ← List.flatten_append, ← h, flatten_splitLines]
    have hchunk : (chunk.flatten ++ trail.flatten)[n]? = some x := by
      rw [List.getElem?_append_left hn, hat]
    rw [hsource, List.getElem?_append_right (by omega), Nat.add_sub_cancel_left, hchunk]
  · show ofToken ⟨.illegal, _, some ((Cursor.start chunk.flatten).advance n).position⟩ _ _ = _
    rw [Cursor.advance_position hn]
    exact ofToken_segment h hn _ _

/-- **A report on a character of a source points at it**, and can be written. -/
theorem Report.ofForeign_points {source : List Char} {x : Char} {n : Nat}
    (hat : source[n]? = some x) (hx : x ≠ '\n' ∧ x ≠ '\r') {filename : String}
    (hname : '\n' ∉ filename.toList) :
    ∃ (k i : Nat) (message pointer bar shown caret : List Char),
      (ofForeign source (x, n)).position.line = k + 1 ∧
      (ofForeign source (x, n)).position.column = i + 1 ∧
      ((ofForeign source (x, n)).render filename).splitOn '\n' =
        [message, pointer, bar, shown, caret] ∧
      PointsAt source filename x k i pointer bar shown caret ∧
      ((source.length : Int) < Limit.countBound →
        (ofForeign source (x, n)).write filename =
          .ok ((ofForeign source (x, n)).render filename)) := by
  have hlong : n < source.length := (List.getElem?_eq_some_iff.1 hat).1
  obtain ⟨before, head, tail, after, hlines, hn⟩ := exists_line_at
    (show (splitLines source).flatten[n]? = some x by rw [flatten_splitLines, hat])
  have hhead : head.length < (head ++ x :: tail).length := by simp
  have hreport : ofForeign source (x, n) =
      ⟨illegalMessage (String.ofList [x]), ⟨before.length + 1, head.length + 1, n⟩, source⟩ := by
    have hplace := Position.ofIndex_append hlines hhead
    rw [← hn] at hplace
    rw [ofForeign, hplace, hn]
    rfl
  obtain ⟨pointer, bar, shown, caret, hrows, hpoints⟩ :=
    rows_point hlines hx (illegalMessage (String.ofList [x])) n filename
  obtain ⟨_, _, _, plain⟩ := exists_sourceLine hlines
  have hwritten : (source.length : Int) < Limit.countBound →
      (ofForeign source (x, n)).write filename =
        .ok ((ofForeign source (x, n)).render filename) := fun hsize =>
    write_eq_ok (Nat.le_of_lt hlong) (Cursor.advance_position hlong).symm hsize filename
  rw [hreport] at hwritten ⊢
  have hsplit := splitOn_render
    ⟨illegalMessage (String.ofList [x]), ⟨before.length + 1, head.length + 1, n⟩, source⟩
    (lf_not_mem_illegalMessage _) hname (fun hmem => (plain _ hmem).1 rfl)
  exact ⟨before.length, head.length, _, pointer, bar, shown, caret, rfl, rfl, hsplit.trans hrows,
    hpoints, hwritten⟩

/-- **The caret of a report stands under the illegal character.**  A report on an illegal token of
some lines of a source has five lines, whatever the name of the source is, unless the name itself
spans lines.  They point at the character that the token is, where it stands in the whole source;
that is the place that the report gives.  And no limit keeps the report from being written, unless
the source has more characters than can be counted. -/
theorem caret_points_at_culprit (source : List Char) {i j : Nat} (hij : i ≤ j)
    (hj : j ≤ (splitLines source).length) {t : Token} (ht : t ∈ tokenize (lineRange source i j))
    (hkind : t.kind = .illegal) {filename : String} (hname : '\n' ∉ filename.toList) :
    let r := Report.ofToken t source i
    ∃ (x : Char) (line column : Nat) (message pointer bar shown caret : List Char),
      t.literal = String.ofList [x] ∧
      r.position.line = line + 1 ∧ r.position.column = column + 1 ∧
      (r.render filename).splitOn '\n' = [message, pointer, bar, shown, caret] ∧
      PointsAt source filename x line column pointer bar shown caret ∧
      ((source.length : Int) < Limit.countBound → r.write filename = .ok (r.render filename)) := by
  obtain ⟨x, n, hliteral, hx, hat, hreport⟩ :=
    Report.ofToken_illegal (splitLines_range source hij) ht hkind
  rw [List.length_take_of_le (by omega)] at hreport
  obtain ⟨line, column, message, pointer, bar, shown, caret, hpoints⟩ :=
    Report.ofForeign_points hat hx hname
  rw [hreport]
  exact ⟨x, line, column, message, pointer, bar, shown, caret, hliteral, hpoints⟩

/-- On the tenth line, the first whose number has two digits, and behind a bar that is not the one
of the gutter. -/
theorem caret_points_on_tenth_line :
    let source := "\n\n\n\n\n\n\n\n\na|@\r\n".toList
    let t : Token := ⟨.illegal, "@", some ⟨1, 3, 2⟩⟩
    let r := Report.ofToken t source 9
    (splitLines source).length = 10 ∧ t ∈ tokenize (lineRange source 9 10) ∧
      '\n' ∉ "b|.ni".toList ∧ r.write "b|.ni" = .ok (r.render "b|.ni") ∧
      ∃ message pointer bar shown caret,
        (r.render "b|.ni").splitOn '\n' = [message, pointer, bar, shown, caret] ∧
        PointsAt source "b|.ni" '@' 9 2 pointer bar shown caret := by
  intro source t r
  have hlength : (splitLines source).length = 10 := by decide
  have htoken : t ∈ tokenize (lineRange source 9 10) := by
    have hnext : (Cursor.start (lineRange source 9 10)).next? =
        some (⟨.ident, "a", some .start⟩, ⟨['|', '@', '\r', '\n'], ⟨1, 2, 1⟩⟩) := by decide
    have hsecond : (⟨['|', '@', '\r', '\n'], ⟨1, 2, 1⟩⟩ : Cursor).next? =
        some (⟨.illegal, "|", some ⟨1, 2, 1⟩⟩, ⟨['@', '\r', '\n'], ⟨1, 3, 2⟩⟩) := by decide
    have hthird : (⟨['@', '\r', '\n'], ⟨1, 3, 2⟩⟩ : Cursor).next? =
        some (t, ⟨['\r', '\n'], ⟨1, 4, 3⟩⟩) := by decide
    have hscan : (scan (lineRange source 9 10))[2]? = some t := by
      rw [scan, Cursor.tokens_of_some hnext, Cursor.tokens_of_some hsecond,
        Cursor.tokens_of_some hthird]
      rfl
    exact List.mem_of_getElem? (tokenize_getElem? hscan)
  have hname : '\n' ∉ "b|.ni".toList := by decide
  obtain ⟨x, line, column, message, pointer, bar, shown, caret, hliteral, hline, hcolumn, hrows,
    hpoints, hwritten⟩ :=
    caret_points_at_culprit source (show 9 ≤ 10 by decide) (by rw [hlength]) htoken rfl hname
  have hposition : r.position = ⟨10, 3, 11⟩ := by decide
  obtain rfl : line = 9 := by
    have hten : (10 : Int) = line + 1 := (congrArg Position.line hposition).symm.trans hline
    omega
  obtain rfl : column = 2 := by
    have hthree : (3 : Int) = column + 1 := (congrArg Position.column hposition).symm.trans hcolumn
    omega
  obtain rfl : '@' = x := by
    have hlist : "@".toList = [x] := (congrArg String.toList hliteral).trans String.toList_ofList
    simpa using hlist
  exact ⟨hlength, htoken, hname, hwritten (by decide), message, pointer, bar, shown, caret, hrows,
    hpoints⟩

end Lexline
