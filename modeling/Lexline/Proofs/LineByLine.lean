import Lexline.Command.Run
import Lexline.Proofs.Locality
import Lexline.Proofs.Placement
import Lexline.Proofs.Records

/-!
# Scanning line by line

A listing scans each line of a source by itself.  No lexeme spans a line ending, so that gives the
tokens of the whole source, once each position is moved down by the lines before it.

* `listFile_eq`, `listLines_plain` — a listing of a file is one of its text, and what it writes if
  nothing can stop it.
* `Position.shift` — a position moved by a number of lines and of characters.
* `tokens_closed` — the tokens of a line and those of what follows it.
* `tokens_lines` — the tokens of the lines of a text, from any line start on.
* `scan_eq_lines`, `dump_lines` — the same for a source and for its records.
* `tokenize_line_by_line` — **the tokens of a source are those of its lines, shifted**, and both
  have the same records, which are those of a listing.
-/

namespace Lexline

open Text

/-! ## Listings of files -/

theorem listFile_eq (fs : FileSystem) (path : Path) (format : Format) (strict : Bool) :
    listFile fs (some path) format strict =
      (readText fs path).map (listSource format strict path.text) := by
  cases hread : readText fs path with
  | error fault =>
    simp only [listFile, hread]
    rfl
  | ok source =>
    simp only [listFile, hread]
    rfl

/-- **A listing that nothing can stop** writes the records of each line. -/
theorem listLines_plain (format : Format) (name : String) (source : List Char) (k : Nat)
    (lines : List (List Char)) :
    listLines format false name source k lines =
      ⟨0, (lines.zipIdx k).map (fun (line, i) => Log.out (dump format i (scan line)))⟩ := by
  induction lines generalizing k with
  | nil => rfl
  | cons line lines ih =>
    rw [listLines, List.zipIdx_cons, List.map_cons, ih]
    rfl

theorem written_out {α : Type} (items : List α) (f : α → List Char) :
    Log.written .out (items.map (fun x => Log.out (f x))) = items.flatMap f := by
  induction items with
  | nil => rfl
  | cons x items ih =>
    rw [List.flatMap_cons, ← ih]
    rfl

theorem listSource_plain (format : Format) (name : String) (source : List Char) :
    Log.written .out (listSource format false name source).log =
      (splitLines source).zipIdx.flatMap (fun (line, k) => dump format k (scan line)) := by
  rw [listSource, listLines_plain]
  exact written_out _ _

/-! ## Positions of lines -/

/-- A position moved down by a number of lines, and on by a number of characters. -/
def Position.shift (lines chars : Nat) (p : Position) : Position :=
  ⟨p.line + lines, p.column, p.offset + chars⟩

/-- A token of a line, as it stands in a source with so many lines and characters before it. -/
def Token.shift (lines chars : Nat) : Token → Token := Token.carry (Position.shift lines chars)

theorem carries_shift (lines chars : Nat) :
    Carries (fun _ => True) (Position.shift lines chars) := by
  constructor
  · intro p _
    refine ⟨trivial, Position.eq_of_parts rfl rfl ?_⟩
    show p.offset + 1 + chars = p.offset + chars + 1
    omega
  · intro p _
    refine ⟨trivial, Position.eq_of_parts ?_ rfl ?_⟩
    · show p.line + 1 + lines = p.line + lines + 1
      omega
    · show p.offset + 1 + chars = p.offset + chars + 1
      omega

/-- The position of the start of a line with `k` lines and `n` characters before it. -/
def Position.lineStart (k n : Nat) : Position := Position.shift k n .start

theorem Position.lineStart_below (k n m : Nat) :
    (lineStart k n).below m = lineStart (k + 1) (n + m) := by
  refine eq_of_parts ?_ rfl ?_ <;> simp only [below, lineStart, shift, start] <;> omega

/-- Line endings are blank. -/
theorem isSpace_of_break {b rest : List Char} (h : IsBreak b rest) :
    ∀ x ∈ b, isSpace x = true := by
  cases h <;> simp [isSpace, spaces]

namespace Cursor

/-- A line scanned where it stands. -/
theorem tokens_lineStart (line : List Char) (k n : Nat) :
    (⟨line, .lineStart k n⟩ : Cursor).tokens.1 = (scan line).map (Token.shift k n) :=
  tokens_carry (carries_shift k n) (c := start line) trivial

theorem tokens_nil (p : Position) : (⟨[], p⟩ : Cursor).tokens.1 = [] := by
  have hnone : (⟨[], p⟩ : Cursor).next? = none := next?_eq_none_iff.2 (by simp)
  rw [tokens_of_none hnone]

/-- A lexeme in a line with an ending stands before the ending. -/
theorem lexeme_before_break {body b rest lead w tail : List Char} {k : Kind}
    (ending : IsBreak b rest) (hw : InLexicon k w) (h : body ++ b = lead ++ (w ++ tail)) :
    ∃ body', body = lead ++ (w ++ body') ∧ tail = body' ++ b := by
  rw [← List.append_assoc] at h
  rcases List.append_eq_append_iff.1 h with ⟨excess, hexcess, hb⟩ | ⟨body', hbody, htail⟩
  · -- the lexeme would end inside the line ending, with a blank
    have hfree : ∀ x ∈ w, x ∉ excess := by
      intro x hx hmem
      have hspace := isSpace_of_break ending x (by rw [hb]; exact List.mem_append_left tail hmem)
      rw [hw.isSpace_eq_false x hx] at hspace
      cases hspace
    have hempty : excess = [] := by
      obtain ⟨c, v, rfl, _⟩ := hw.exists_cons
      rcases List.append_eq_append_iff.1 hexcess with ⟨start, _, hwhole⟩ | ⟨gap, _, rfl⟩
      · rw [List.eq_nil_iff_forall_not_mem]
        intro x hx
        exact hfree x (by rw [hwhole]; simp [hx]) hx
      · exact absurd (List.mem_append_right gap (by simp)) (hfree c (by simp))
    subst hempty
    exact ⟨[], by simpa using hexcess.symm, by simpa using hb.symm⟩
  · exact ⟨body', by rw [hbody, List.append_assoc], htail⟩

/-- **The tokens of a line with an ending**, and then those of what follows it. -/
theorem tokens_closed {c : Cursor} {body b rest : List Char} (hc : c.rest = body ++ b)
    (plain : IsPlain body) (ending : IsBreak b rest) :
    (c.extend rest).tokens.1 =
      c.tokens.1 ++ (⟨rest, c.position.below (body ++ b).length⟩ : Cursor).tokens.1 := by
  induction c using tokens_induct generalizing body with
  | done c hnone =>
    have hblank : ∀ x ∈ body ++ b, isSpace x = true := hc ▸ next?_eq_none_iff.1 hnone
    have hrest : (c.extend rest).rest = body ++ b ++ rest := by rw [extend, hc]
    rw [tokens_of_none hnone, ← tokens_skip hrest hblank, extend, hc,
      (advance_closed plain ending c.position).1]
    rfl
  | step c t d hsome ih =>
    obtain ⟨lead, w, tail, k, htext, hlead, hlong, rfl, rfl⟩ := next?_eq_some_iff.1 hsome
    obtain ⟨body', rfl, rfl⟩ := lexeme_before_break ending hlong.known (hc ▸ htext)
    have plain' : IsPlain body' := fun x hx => plain x (by simp [hx])
    have hpast := ih (rest_after htext) plain'
    have hnext := next?_extend hsome (by rw [rest_after htext]; simp [ending.ne_nil]) rest
    rw [tokens_of_some hnext, tokens_of_some hsome, hpast]
    -- both ways of counting reach the start of the next line
    have hle : lead.length + w.length ≤ (lead ++ (w ++ body')).length := by
      simp only [List.length_append]
      omega
    have hmove := advance_plain plain b c.position hle
    rw [← hc] at hmove
    have hin : (c.advance (lead.length + w.length)).position =
        c.position.along (lead.length + w.length) := congrArg Cursor.position hmove
    have hlength : lead.length + w.length + (body' ++ b).length =
        (lead ++ (w ++ body') ++ b).length := by
      simp only [List.length_append]
      omega
    rw [hin, Position.along_below, hlength]
    rfl

/-- **The tokens of a text are those of its lines**, from a line start on: `before` are the lines
in front of the text. -/
theorem tokens_lines (text : List Char) (before : List (List Char)) :
    (⟨text, .lineStart before.length before.flatten.length⟩ : Cursor).tokens.1 =
      ((splitLines text).zipIdx before.length).flatMap (fun (line, k) =>
        (scan line).map (Token.shift k ((before ++ splitLines text).take k).flatten.length)) := by
  induction text using splitLines_induct generalizing before with
  | nil => exact tokens_nil _
  | line line rest hline ih =>
    have hfirst : ((before ++ splitLines (line ++ rest)).take before.length) = before :=
      List.take_left
    have hafter := ih (before ++ [line])
    rw [List.append_assoc, List.singleton_append, ← splitLines_append hline,
      List.length_append, List.length_singleton, List.flatten_append, List.length_append,
      List.flatten_singleton, ← Position.lineStart_below] at hafter
    rw [splitLines_append hline, List.zipIdx_cons, List.flatMap_cons, ← splitLines_append hline,
      ← hafter]
    show _ = (scan line).map (Token.shift before.length
      ((before ++ splitLines (line ++ rest)).take before.length).flatten.length) ++ _
    rw [hfirst, ← tokens_lineStart]
    cases hline with
    | @closed body b _ plain ending =>
      exact tokens_closed (c := ⟨body ++ b, _⟩) rfl plain ending
    | last => rw [tokens_nil, List.append_nil, List.append_nil]

end Cursor

/-! ## Records -/

theorem Record.render_shift (format : Format) (k n : Nat) (t : Token) :
    render format k t = render format 0 (t.shift k n) := by
  have hplace : jsonPlace k t.position = jsonPlace 0 (t.position.map (Position.shift k n)) := by
    cases t.position with
    | none => rw [Option.map_none, jsonPlace_none, jsonPlace_none]
    | some p =>
      rw [Option.map_some, jsonPlace_some, jsonPlace_some]
      simp only [Position.shift, Int.add_zero]
  cases format with
  | text => rw [render_text, render_text]; rfl
  | json =>
    rw [render_json, render_json]
    unfold json
    rw [hplace]
    rfl

theorem dump_shift (format : Format) (k n : Nat) (ts : List Token) :
    dump format k ts = dump format 0 (ts.map (Token.shift k n)) := by
  unfold dump
  rw [List.flatMap_map]
  refine congrArg (List.flatMap · ts) (funext fun t => ?_)
  rw [Record.render_shift format k n t]

/-! ## Whole sources -/

/-- The tokens of a source, line by line. -/
theorem scan_eq_lines (source : List Char) :
    scan source = (splitLines source).zipIdx.flatMap (fun (line, k) =>
      (scan line).map (Token.shift k ((splitLines source).take k).flatten.length)) :=
  Cursor.tokens_lines source []

theorem tokenize_eq_scan (source : List Char) :
    ∃ last, last.kind = .eof ∧ tokenize source = scan source ++ [last] :=
  ⟨_, rfl, congrArg Prod.fst (Cursor.tokenize_eq (Cursor.start source))⟩

theorem tokenize_dropLast (source : List Char) : (tokenize source).dropLast = scan source := by
  obtain ⟨last, _, htokens⟩ := tokenize_eq_scan source
  rw [htokens, List.dropLast_concat]

theorem dump_lines (format : Format) (source : List Char) :
    (splitLines source).zipIdx.flatMap (fun (line, k) => dump format k (scan line)) =
      dump format 0 (scan source) := by
  rw [scan_eq_lines source, dump_flatMap]
  refine congrArg (List.flatMap · _) (funext fun (line, k) => ?_)
  exact dump_shift format k _ (scan line)

/-- **Line by line or as a whole, a source has the same tokens.**  Those of its lines, each line
scanned by itself and its tokens moved by the lines and the characters before it, are those of the
source up to the end token.  Hence both have the same records, which are what a listing writes, and
so are those of every file that can be read. -/
theorem tokenize_line_by_line (source : List Char) :
    (∃ last, last.kind = .eof ∧
      tokenize source = (splitLines source).zipIdx.flatMap (fun (line, k) =>
        (scan line).map (Token.shift k ((splitLines source).take k).flatten.length)) ++ [last]) ∧
    (∀ format, (splitLines source).zipIdx.flatMap (fun (line, k) => dump format k (scan line)) =
      dump format 0 (tokenize source).dropLast) ∧
    (∀ format name, Log.written .out (listSource format false name source).log =
      dump format 0 (tokenize source).dropLast) ∧
    (∀ fs path format,
      (listFile fs (some path) format false).map (fun outcome => Log.written .out outcome.log) =
        (readText fs path).map (fun text => dump format 0 (tokenize text).dropLast)) := by
  have hlisted : ∀ format name text, Log.written .out (listSource format false name text).log =
      dump format 0 (tokenize text).dropLast := by
    intro format name text
    rw [tokenize_dropLast, listSource_plain, dump_lines]
  refine ⟨?_, ?_, fun format name => hlisted format name source, ?_⟩
  · obtain ⟨last, heof, htokens⟩ := tokenize_eq_scan source
    exact ⟨last, heof, htokens.trans (congrArg (· ++ [last]) (scan_eq_lines source))⟩
  · intro format
    rw [tokenize_dropLast, dump_lines]
  · intro fs path format
    rw [listFile_eq]
    cases readText fs path with
    | error fault => rfl
    | ok text => exact congrArg Except.ok (hlisted format path.text text)

end Lexline
