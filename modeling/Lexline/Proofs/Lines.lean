import Lexline.Text.Line

/-!
# Lines and their endings

* `IsPlain`, `IsBreak`, `IsLine` — a text inside one line, a whole line ending, and a line with
  what follows it.
* `splitLines_append` — a line in front of a text is cut off as a whole.
* `splitLines_induct` — **every text is made of lines**: induction along them.
* `splitLines_take`, `splitLines_segment` — the first lines of a text, and neighbouring lines, are
  the lines of what they spell.
* `Cut.replace`, `IsLine.replace` — a line may be replaced by another one where it stands, and so
  may the text of a line.
* `splitLines_unifyBreaks` — unifying the line endings of a text is unifying those of its lines.
* `feedLines_eq_splitLines` — without carriage returns, both ways to cut a text agree.
* `feedLines_flatMap` — lines written one by one are read one by one.
-/

namespace Lexline.Text

/-- A text without line feeds and carriage returns. -/
def IsPlain (body : List Char) : Prop := ∀ c ∈ body, c ≠ '\n' ∧ c ≠ '\r'

/-- `IsBreak b rest`: `b` is a line ending in front of `rest`.  A carriage return is no line ending
by itself if a line feed follows it. -/
inductive IsBreak : List Char → List Char → Prop
  | lf {rest : List Char} : IsBreak ['\n'] rest
  | crlf {rest : List Char} : IsBreak ['\r', '\n'] rest
  | cr {rest : List Char} (apart : rest.head? ≠ some '\n') : IsBreak ['\r'] rest

/-- `IsLine line rest`: a text that goes on with `rest` starts with the line `line`.  Only the last
line of a text may lack an ending, and then it is not empty. -/
inductive IsLine : List Char → List Char → Prop
  | closed {body b rest : List Char} (plain : IsPlain body) (ending : IsBreak b rest) :
      IsLine (body ++ b) rest
  | last {body : List Char} (plain : IsPlain body) (nonempty : body ≠ []) : IsLine body []

theorem isPlain_nil : IsPlain [] := by
  intro c hc; cases hc

theorem isPlain_cons {c : Char} {body : List Char} :
    IsPlain (c :: body) ↔ (c ≠ '\n' ∧ c ≠ '\r') ∧ IsPlain body :=
  List.forall_mem_cons

theorem IsBreak.ne_nil {b rest : List Char} (h : IsBreak b rest) : b ≠ [] := by
  cases h <;> simp

theorem IsLine.ne_nil {line rest : List Char} (h : IsLine line rest) : line ≠ [] := by
  cases h with
  | closed _ ending => simp [ending.ne_nil]
  | last _ nonempty => exact nonempty

theorem IsLine.head?_append {line rest : List Char} (h : IsLine line rest) (more : List Char) :
    (line ++ more).head? = line.head? := by
  obtain ⟨c, line, rfl⟩ := List.exists_cons_of_ne_nil h.ne_nil
  rfl

theorem IsLine.cons {c : Char} {line rest : List Char} (hc : c ≠ '\n' ∧ c ≠ '\r')
    (h : IsLine line rest) : IsLine (c :: line) rest := by
  cases h with
  | closed plain ending => exact .closed (isPlain_cons.2 ⟨hc, plain⟩) ending
  | last plain _ => exact .last (isPlain_cons.2 ⟨hc, plain⟩) (by simp)

/-- A line ending is one in front of the empty text, too. -/
theorem IsBreak.at_end {b rest : List Char} (h : IsBreak b rest) : IsBreak b [] := by
  cases h with
  | lf => exact .lf
  | crlf => exact .crlf
  | cr => exact .cr (by simp)

theorem IsLine.at_end {line rest : List Char} (h : IsLine line rest) : IsLine line [] := by
  cases h with
  | closed plain ending => exact .closed plain ending.at_end
  | last plain nonempty => exact .last plain nonempty

/-! ## Cutting -/

theorem splitLines_plain {c : Char} (hc : c ≠ '\n' ∧ c ≠ '\r') (rest : List Char) :
    splitLines (c :: rest) = pushLine c (splitLines rest) := by
  rw [splitLines.eq_3 c rest (fun _ h _ => hc.2 h), if_neg (by simp [hc.1, hc.2])]

theorem splitLines_break {b rest : List Char} (h : IsBreak b rest) :
    splitLines (b ++ rest) = b :: splitLines rest := by
  cases h with
  | lf => exact splitLines.eq_3 '\n' rest (fun _ h _ => by cases h)
  | crlf => exact splitLines.eq_2 rest
  | cr apart =>
    refine splitLines.eq_3 '\r' rest (fun tail _ h => apart ?_)
    rw [h]; rfl

/-- **A line in front of a text is cut off as a whole.** -/
theorem splitLines_append {line rest : List Char} (h : IsLine line rest) :
    splitLines (line ++ rest) = line :: splitLines rest := by
  cases h with
  | @closed body b rest plain ending =>
    induction body with
    | nil => exact splitLines_break ending
    | cons c body ih =>
      obtain ⟨hc, plain⟩ := isPlain_cons.1 plain
      rw [List.cons_append, List.cons_append, splitLines_plain hc, ih plain]
      rfl
  | last plain nonempty =>
    induction line with
    | nil => exact absurd rfl nonempty
    | cons c line ih =>
      obtain ⟨hc, plain⟩ := isPlain_cons.1 plain
      rw [List.cons_append, splitLines_plain hc]
      cases line with
      | nil => rfl
      | cons d line => rw [ih plain (by simp)]; rfl

/-- A text is empty or starts with a line. -/
theorem exists_line (text : List Char) :
    text = [] ∨ ∃ line rest, IsLine line rest ∧ text = line ++ rest := by
  induction text with
  | nil => exact Or.inl rfl
  | cons c text ih =>
    right
    by_cases hlf : c = '\n'
    · exact ⟨[c], text, hlf ▸ .closed isPlain_nil .lf, rfl⟩
    by_cases hcr : c = '\r'
    · subst hcr
      by_cases hnext : text.head? = some '\n'
      · obtain ⟨rest, rfl⟩ := List.head?_eq_some_iff.1 hnext
        exact ⟨['\r', '\n'], rest, .closed isPlain_nil .crlf, rfl⟩
      · exact ⟨['\r'], text, .closed isPlain_nil (.cr hnext), rfl⟩
    rcases ih with rfl | ⟨line, rest, hline, rfl⟩
    · exact ⟨[c], [], .last (isPlain_cons.2 ⟨⟨hlf, hcr⟩, isPlain_nil⟩) (by simp), rfl⟩
    · exact ⟨c :: line, rest, hline.cons ⟨hlf, hcr⟩, rfl⟩

/-- **Induction along the lines of a text.** -/
theorem splitLines_induct {motive : List Char → Prop} (nil : motive [])
    (line : ∀ line rest, IsLine line rest → motive rest → motive (line ++ rest))
    (text : List Char) : motive text := by
  obtain ⟨n, hn⟩ : ∃ n, text.length ≤ n := ⟨_, Nat.le_refl _⟩
  induction n generalizing text with
  | zero =>
    obtain rfl : text = [] := List.length_eq_zero_iff.1 (by omega)
    exact nil
  | succ n ih =>
    rcases exists_line text with rfl | ⟨first, rest, hline, rfl⟩
    · exact nil
    · have hpos : 0 < first.length := List.length_pos_iff.2 hline.ne_nil
      rw [List.length_append] at hn
      exact line first rest hline (ih rest (by omega))

theorem splitLines_ne_nil {text : List Char} (h : text ≠ []) : splitLines text ≠ [] := by
  rcases exists_line text with rfl | ⟨line, rest, hline, rfl⟩
  · exact absurd rfl h
  · rw [splitLines_append hline]; simp

/-- What the cutting gives are lines. -/
theorem mem_splitLines {text line : List Char} (h : line ∈ splitLines text) :
    ∃ rest, IsLine line rest := by
  induction text using splitLines_induct with
  | nil => cases h
  | line first rest hline ih =>
    rw [splitLines_append hline] at h
    rcases List.mem_cons.1 h with rfl | h
    · exact ⟨rest, hline⟩
    · exact ih h

/-! ## Some lines of a text -/

/-- All that a line ending asks of what follows it is whether that starts with a line feed. -/
theorem IsBreak.of_head {b rest rest' : List Char} (h : IsBreak b rest)
    (hhead : rest'.head? = some '\n' → rest.head? = some '\n') : IsBreak b rest' := by
  cases h with
  | lf => exact .lf
  | crlf => exact .crlf
  | cr apart => exact .cr (fun hlf => apart (hhead hlf))

theorem IsBreak.of_prefix {b rest rest' : List Char} (h : IsBreak b rest) (hpre : rest' <+: rest) :
    IsBreak b rest' := by
  refine h.of_head (fun hlf => ?_)
  obtain ⟨tail, rfl⟩ := hpre
  rw [List.head?_append, hlf]
  rfl

theorem IsLine.of_prefix {line rest rest' : List Char} (h : IsLine line rest)
    (hpre : rest' <+: rest) : IsLine line rest' := by
  cases h with
  | closed plain ending => exact .closed plain (ending.of_prefix hpre)
  | last plain nonempty =>
    obtain rfl : rest' = [] := List.prefix_nil.1 hpre
    exact .last plain nonempty

/-- **The first lines of a text are the lines of what they spell.** -/
theorem splitLines_take (text : List Char) (k : Nat) :
    splitLines ((splitLines text).take k).flatten = (splitLines text).take k := by
  induction text using splitLines_induct generalizing k with
  | nil => simp [splitLines]
  | line line rest hline ih =>
    rw [splitLines_append hline]
    cases k with
    | zero => rfl
    | succ k =>
      have hpre : ((splitLines rest).take k).flatten <+: rest := by
        refine ⟨((splitLines rest).drop k).flatten, ?_⟩
        rw [← List.flatten_append, List.take_append_drop, flatten_splitLines]
      rw [List.take_succ_cons, List.flatten_cons, splitLines_append (hline.of_prefix hpre), ih]

theorem splitLines_drop (text : List Char) (k : Nat) :
    splitLines ((splitLines text).drop k).flatten = (splitLines text).drop k := by
  induction text using splitLines_induct generalizing k with
  | nil => simp [splitLines]
  | line line rest hline ih =>
    cases k with
    | zero => rw [List.drop_zero, flatten_splitLines]
    | succ k => rw [splitLines_append hline, List.drop_succ_cons, ih]

/-- **Neighbouring lines of a text are the lines of what they spell.** -/
theorem splitLines_segment {text : List Char} {lead chunk trail : List (List Char)}
    (h : splitLines text = lead ++ (chunk ++ trail)) : splitLines chunk.flatten = chunk := by
  have hdrop : splitLines (chunk ++ trail).flatten = chunk ++ trail := by
    have hfrom := splitLines_drop text lead.length
    rwa [h, List.drop_left] at hfrom
  have htake := splitLines_take (chunk ++ trail).flatten chunk.length
  rwa [hdrop, List.take_left] at htake

/-! ## Other lines in the same place -/

/-- `Cut lines`: each is a line in front of the next ones. -/
inductive Cut : List (List Char) → Prop
  | nil : Cut []
  | cons {line : List Char} {rest : List (List Char)} (first : IsLine line rest.flatten)
      (others : Cut rest) : Cut (line :: rest)

theorem cut_splitLines (text : List Char) : Cut (splitLines text) := by
  induction text using splitLines_induct with
  | nil => exact .nil
  | line line rest hline ih =>
    rw [splitLines_append hline]
    exact .cons (by rwa [flatten_splitLines]) ih

theorem Cut.splitLines_flatten {lines : List (List Char)} (h : Cut lines) :
    splitLines lines.flatten = lines := by
  induction h with
  | nil => rfl
  | cons first _ ih => rw [List.flatten_cons, splitLines_append first, ih]

theorem Cut.behind {lead trail : List (List Char)} (h : Cut (lead ++ trail)) : Cut trail := by
  induction lead with
  | nil => exact h
  | cons line lead ih =>
    cases h with
    | cons _ others => exact ih others

/-- All that a line asks of what follows it is whether there is anything, and whether that starts
with a line feed. -/
theorem IsLine.of_head {line rest rest' : List Char} (h : IsLine line rest) (hrest : rest ≠ [])
    (hhead : rest'.head? = some '\n' → rest.head? = some '\n') : IsLine line rest' := by
  cases h with
  | closed plain ending => exact .closed plain (ending.of_head hhead)
  | last => exact absurd rfl hrest

/-- **A line may be replaced by another one**, unless that would start with a line feed. -/
theorem Cut.replace {lead trail : List (List Char)} {line line' : List Char}
    (h : Cut (lead ++ line :: trail)) (hline : IsLine line' trail.flatten)
    (hhead : line'.head? ≠ some '\n') : Cut (lead ++ line' :: trail) := by
  induction lead with
  | nil =>
    cases h with
    | cons _ others => exact .cons hline others
  | cons first lead ih =>
    cases h with
    | cons hfirst others =>
      refine .cons (hfirst.of_head ?_ ?_) (ih others)
      · cases others.behind with
        | cons hold _ => simp [hold.ne_nil]
      · -- what follows the first line starts with the new line, or as before
        cases lead with
        | nil =>
          intro hlf
          exact absurd ((hline.head?_append _).symm.trans hlf) hhead
        | cons second lead =>
          cases others with
          | cons hsecond _ =>
            intro hlf
            exact (hsecond.head?_append _).trans ((hsecond.head?_append _).symm.trans hlf)

/-- A line that starts with a line feed is this line feed. -/
theorem IsLine.eq_of_head_lf {line rest : List Char} (h : IsLine line rest)
    (hhead : line.head? = some '\n') : line = ['\n'] := by
  cases h with
  | @closed body b _ plain ending =>
    cases body with
    | nil =>
      cases ending with
      | lf => rfl
      | crlf => cases hhead
      | cr => cases hhead
    | cons c body => exact absurd (Option.some.inj hhead) (isPlain_cons.1 plain).1.1
  | last plain nonempty =>
    obtain ⟨c, line, rfl⟩ := List.exists_cons_of_ne_nil nonempty
    exact absurd (Option.some.inj hhead) (isPlain_cons.1 plain).1.1

/-- A line ending has no proper plain start. -/
theorem IsBreak.of_plain_append {x ending rest : List Char} (h : IsBreak (x ++ ending) rest)
    (plain : IsPlain x) : x = [] := by
  cases x with
  | nil => rfl
  | cons c x =>
    obtain ⟨⟨hlf, hcr⟩, _⟩ := isPlain_cons.1 plain
    generalize hb : c :: x ++ ending = b at h
    cases h with
    | lf => exact absurd (List.cons.inj hb).1 hlf
    | crlf => exact absurd (List.cons.inj hb).1 hcr
    | cr => exact absurd (List.cons.inj hb).1 hcr

/-- The text of a line may be replaced by another one. -/
theorem IsLine.replace {body body' ending rest : List Char} (h : IsLine (body ++ ending) rest)
    (plain : IsPlain body) (plain' : IsPlain body') (nonempty : body' ++ ending ≠ []) :
    IsLine (body' ++ ending) rest := by
  generalize hline : body ++ ending = line at h
  cases h with
  | @closed text b _ hplain hbreak =>
    -- the line ending stands whole in what stays
    rcases List.append_eq_append_iff.1 hline with ⟨x, rfl, rfl⟩ | ⟨x, rfl, rfl⟩
    · have hx : IsPlain (body' ++ x) := by
        intro c hc
        rcases List.mem_append.1 hc with hc | hc
        · exact plain' c hc
        · exact hplain c (List.mem_append_right body hc)
      rw [← List.append_assoc]
      exact .closed hx hbreak
    · obtain rfl : x = [] :=
        hbreak.of_plain_append (fun c hc => plain c (List.mem_append_right text hc))
      exact .closed plain' hbreak
  | last hplain =>
    subst hline
    refine .last ?_ nonempty
    intro c hc
    rcases List.mem_append.1 hc with hc | hc
    · exact plain' c hc
    · exact hplain c (List.mem_append_right body hc)

/-! ## Ends of texts -/

/-- A text is empty or ends in a line ending, so that a new line starts after it. -/
def EndsClosed (text : List Char) : Prop :=
  text = [] ∨ text.getLast? = some '\n' ∨ text.getLast? = some '\r'

theorem endsClosed_closed {body b rest : List Char} (ending : IsBreak b rest) :
    EndsClosed (body ++ b ++ rest) ↔ EndsClosed rest := by
  have hb : b.getLast? = some '\n' ∨ b.getLast? = some '\r' := by
    cases ending <;> simp
  cases rest with
  | nil =>
    refine iff_of_true (Or.inr ?_) (Or.inl rfl)
    rw [List.append_nil, List.getLast?_append]
    rcases hb with hb | hb <;> simp [hb]
  | cons c rest => simp [EndsClosed, List.getLast?_append]

theorem not_endsClosed_last {body : List Char} (plain : IsPlain body) (nonempty : body ≠ []) :
    ¬ EndsClosed body := by
  have hlast : ∀ c, body.getLast? = some c → c ≠ '\n' ∧ c ≠ '\r' :=
    fun c hc => plain c (List.mem_of_getLast? hc)
  rintro (rfl | h | h)
  · exact nonempty rfl
  · exact (hlast _ h).1 rfl
  · exact (hlast _ h).2 rfl

/-! ## Unified line endings -/

theorem unifyBreaks_plain {body : List Char} (h : IsPlain body) (rest : List Char) :
    unifyBreaks (body ++ rest) = body ++ unifyBreaks rest := by
  induction body with
  | nil => rfl
  | cons c body ih =>
    obtain ⟨hc, plain⟩ := isPlain_cons.1 h
    rw [List.cons_append, unifyBreaks.eq_3 c _ (fun _ h _ => hc.2 h), if_neg hc.2, ih plain]
    rfl

theorem unifyBreaks_break {b rest : List Char} (h : IsBreak b rest) :
    unifyBreaks (b ++ rest) = '\n' :: unifyBreaks rest := by
  cases h with
  | lf => exact unifyBreaks.eq_3 '\n' rest (fun _ h _ => by cases h)
  | crlf => exact unifyBreaks.eq_2 rest
  | cr apart =>
    refine unifyBreaks.eq_3 '\r' rest (fun tail _ h => apart ?_)
    rw [h]; rfl

theorem unifyBreaks_closed {body b rest : List Char} (plain : IsPlain body)
    (ending : IsBreak b rest) : unifyBreaks (body ++ b) = body ++ ['\n'] := by
  have hb := unifyBreaks_break ending.at_end
  rw [List.append_nil] at hb
  rw [unifyBreaks_plain plain, hb]
  rfl

theorem unifyBreaks_of_isPlain {body : List Char} (plain : IsPlain body) :
    unifyBreaks body = body := by
  have h := unifyBreaks_plain plain []
  simpa [unifyBreaks] using h

/-- Unifying a line and what follows it, apart. -/
theorem unifyBreaks_append {line rest : List Char} (h : IsLine line rest) :
    unifyBreaks (line ++ rest) = unifyBreaks line ++ unifyBreaks rest ∧
      IsLine (unifyBreaks line) (unifyBreaks rest) := by
  cases h with
  | closed plain ending =>
    rw [unifyBreaks_closed plain ending, List.append_assoc, unifyBreaks_plain plain,
      unifyBreaks_break ending]
    exact ⟨by simp, .closed plain .lf⟩
  | last plain nonempty =>
    rw [unifyBreaks_of_isPlain plain, List.append_nil, unifyBreaks_of_isPlain plain]
    exact ⟨(List.append_nil _).symm, .last plain nonempty⟩

/-- **Unifying the line endings of a text is unifying those of its lines.** -/
theorem splitLines_unifyBreaks (text : List Char) :
    splitLines (unifyBreaks text) = (splitLines text).map unifyBreaks := by
  induction text using splitLines_induct with
  | nil => rfl
  | line line rest hline ih =>
    obtain ⟨hsplit, hunified⟩ := unifyBreaks_append hline
    rw [hsplit, splitLines_append hunified, splitLines_append hline, ih]
    rfl

theorem cr_not_mem_unifyBreaks (text : List Char) : '\r' ∉ unifyBreaks text := by
  fun_induction unifyBreaks text with
  | case1 => simp
  | case2 rest ih => simp [ih]
  | case3 c rest _ ih =>
    have hc : '\r' ≠ if c = '\r' then '\n' else c := by
      split
      · decide
      · rename_i h; exact Ne.symm h
    simp [hc, ih]

theorem unifyBreaks_of_cr_not_mem {text : List Char} (h : '\r' ∉ text) :
    unifyBreaks text = text := by
  induction text with
  | nil => rfl
  | cons c text ih =>
    have hc : c ≠ '\r' := fun heq => h (by simp [heq])
    have htext : '\r' ∉ text := fun hmem => h (by simp [hmem])
    rw [unifyBreaks.eq_3 c text (fun _ heq _ => hc heq), if_neg hc, ih htext]

/-! ## Lines that end at line feeds -/

/-- The first lines of a text with unified line endings have unified line endings. -/
theorem unifyBreaks_take_lines (text : List Char) (k : Nat) :
    unifyBreaks ((splitLines (unifyBreaks text)).take k).flatten =
      ((splitLines (unifyBreaks text)).take k).flatten := by
  apply unifyBreaks_of_cr_not_mem
  intro hcr
  obtain ⟨line, hline, hmem⟩ := List.mem_flatten.1 hcr
  have hwhole : '\r' ∈ (splitLines (unifyBreaks text)).flatten :=
    List.mem_flatten.2 ⟨line, List.mem_of_mem_take hline, hmem⟩
  rw [flatten_splitLines] at hwhole
  exact cr_not_mem_unifyBreaks text hwhole

/-- Without carriage returns, both ways to cut a text give the same lines. -/
theorem feedLines_eq_splitLines {text : List Char} (h : '\r' ∉ text) :
    feedLines text = splitLines text := by
  induction text with
  | nil => rfl
  | cons c text ih =>
    have hc : c ≠ '\r' := fun heq => h (by simp [heq])
    have htext : '\r' ∉ text := fun hmem => h (by simp [hmem])
    rw [splitLines.eq_3 c text (fun _ heq _ => hc heq), feedLines, ih htext]
    simp [hc]

theorem feedLines_line {line : List Char} (h : '\n' ∉ line) (rest : List Char) :
    feedLines (line ++ '\n' :: rest) = (line ++ ['\n']) :: feedLines rest := by
  induction line with
  | nil => rfl
  | cons c line ih =>
    have hc : c ≠ '\n' := by
      rintro rfl
      exact h (by simp)
    have hline : '\n' ∉ line := fun hmem => h (by simp [hmem])
    rw [List.cons_append, feedLines, if_neg hc, ih hline]
    rfl

/-- **Lines written one by one are read one by one.** -/
theorem feedLines_flatMap {α : Type} (items : List α) {f : α → List Char}
    (h : ∀ x ∈ items, '\n' ∉ f x) :
    feedLines (items.flatMap (fun x => f x ++ ['\n'])) = items.map (fun x => f x ++ ['\n']) := by
  induction items with
  | nil => rfl
  | cons x items ih =>
    rw [List.flatMap_cons, List.append_assoc, List.singleton_append, feedLines_line (h x (by simp)),
      ih (fun y hy => h y (by simp [hy]))]
    rfl

end Lexline.Text
