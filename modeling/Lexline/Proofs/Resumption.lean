import Lexline.Proofs.Locality
import Lexline.Proofs.Placement
import Mathlib

/-!
# Going on from any place

A cursor that was moved about, and may stand inside a lexeme, between the characters of one line
ending or past the end, scans what is left as a scan of that text alone would, with the positions
counted on from where it stands.

* `Position.resumed` — a place of a text, when the text starts somewhere else.
* `tokenize_carry` — all tokens with the end token, from a changed position.
* `performAll_start` — what requests make of a cursor at the start is told by its offset.
* `tokenize_resumes` — **going on is starting anew on what is left**, and how the cursor came there
  has no say in what is still to come.
-/

namespace Lexline

/-- The place `p` of a text that starts at `base`.  Lines and offsets go on from there, and so do
the columns of the first line; those of later lines do not. -/
def Position.resumed (base p : Position) : Position :=
  ⟨base.line + p.line - 1, if p.line = 1 then p.column + base.column - 1 else p.column,
    p.offset + base.offset⟩

theorem Position.resumed_start (base : Position) : base.resumed .start = base := by
  refine eq_of_parts ?_ ?_ ?_
  · simp [resumed, start]
  · show (1 : Int) + base.column - 1 = base.column
    omega
  · simp [resumed, start]

/-- Only from the second line on the columns start anew, and there is no way back to the first. -/
theorem carries_resumed (base : Position) :
    Carries (fun p => 1 ≤ p.line) base.resumed := by
  constructor
  · intro p hp
    refine ⟨hp, Position.eq_of_parts rfl ?_ ?_⟩
    · simp only [Position.resumed, Position.nextColumn]
      split <;> omega
    · simp only [Position.resumed, Position.nextColumn]
      omega
  · intro p hp
    have hlater : p.nextLine.line ≠ 1 := by
      show p.line + 1 ≠ 1
      omega
    have hcolumn : (base.resumed p.nextLine).column = 1 := if_neg hlater
    refine ⟨?_, Position.eq_of_parts ?_ hcolumn ?_⟩
    · show 1 ≤ p.line + 1
      omega
    · show base.line + (p.line + 1) - 1 = base.line + p.line - 1 + 1
      omega
    · show p.offset + 1 + base.offset = p.offset + base.offset + 1
      omega

namespace Cursor

variable {good : Position → Prop} {f : Position → Position}

/-- All tokens with the end token, from a changed position. -/
theorem tokenize_carry (h : Carries good f) {c : Cursor} (hc : good c.position) :
    (c.carry f).tokenize.1 = c.tokenize.1.map (Token.carry f) := by
  obtain ⟨_, hend⟩ := advance_carry h hc c.rest.length
  have hlast : ((c.carry f).advance (c.carry f).rest.length).endToken =
      Token.carry f (c.advance c.rest.length).endToken := by
    show ((c.carry f).advance c.rest.length).endToken = _
    rw [hend]
    rfl
  rw [tokenize_eq, tokenize_eq, tokens_carry h hc, hlast, List.map_append, List.map_singleton]

/-- **What requests make of a cursor at the start is told by its offset.** -/
theorem performAll_start (source : List Char) (moves : List Move) : ∃ n : Nat,
    ((start source).performAll moves).2 = (start source).advance n ∧
      ((start source).performAll moves).2.position.offset = n := by
  obtain ⟨n, hn⟩ := performAll_eq_advance (start source) moves
  exact ⟨n, hn, by rw [hn, start_advance_offset]⟩

/-- **Going on is starting anew on what is left.**  After any requests, also such that stop inside a
lexeme, inside a line ending or past the end, the tokens from there on, the end token included, are
those of the text that is left, each place counted on from where the cursor stands.  So requests
that lead to one offset lead to one cursor, and whatever is asked of it next has the same replies. -/
theorem tokenize_resumes (source : List Char) (moves : List Move) :
    let c := ((start source).performAll moves).2
    (∃ p : Nat, c.position.offset = p ∧
      c.tokenize.1 =
        (Lexline.tokenize (source.drop p)).map (Token.carry c.position.resumed)) ∧
    ∀ others, let d := ((start source).performAll others).2
      d.position.offset = c.position.offset →
        d.position = c.position ∧ d.tokenize.1 = c.tokenize.1 ∧
          ∀ future, (d.performAll future).1 = (c.performAll future).1 := by
  intro c
  obtain ⟨p, hc, hp⟩ := performAll_start source moves
  constructor
  · refine ⟨p, hp, ?_⟩
    have hcarried : (start (source.drop p)).carry c.position.resumed = c := by
      have hrest : source.drop p = c.rest := by
        show _ = ((start source).performAll moves).2.rest
        rw [hc, advance_rest]
        rfl
      show (⟨source.drop p, c.position.resumed .start⟩ : Cursor) = c
      rw [Position.resumed_start, hrest]
    have hgood : (1 : Int) ≤ (start (source.drop p)).position.line := Int.le_refl 1
    have hlist := tokenize_carry (carries_resumed c.position) hgood
    rw [hcarried] at hlist
    exact hlist
  · intro others d hoffset
    obtain ⟨q, hd, hq⟩ := performAll_start source others
    have hpq : q = p := by
      have heq : (q : Int) = p := by rw [← hq, ← hp]; exact hoffset
      omega
    have hsame : d = c := by
      show ((start source).performAll others).2 = ((start source).performAll moves).2
      rw [hd, hc, hpq]
    rw [hsame]
    exact ⟨rfl, rfl, fun _ => rfl⟩

/-- A cursor between a carriage return and a line feed starts anew on the line feed, which still ends
the first line; and it does not matter whether the word before was read as a word or as a token. -/
theorem tokenize_resumes_inside_break :
    let source := "a\r\n5".toList
    let c := ((start source).performAll [.word, .read]).2
    let d := ((start source).performAll [.next, .peek, .read]).2
    c.position = ⟨1, 3, 2⟩ ∧ d.position.offset = c.position.offset ∧
      c.tokenize.1 =
        [⟨.int, "5", some ⟨2, 1, 3⟩⟩, ⟨.eof, endLiteral, some ⟨2, 2, 4⟩⟩] ∧
      Lexline.tokenize "\n5".toList =
        [⟨.int, "5", some ⟨2, 1, 1⟩⟩, ⟨.eof, endLiteral, some ⟨2, 2, 2⟩⟩] ∧
      d.tokenize.1 = c.tokenize.1 := by
  intro source c d
  have hposition : c.position = ⟨1, 3, 2⟩ := by decide
  have hoffset : d.position.offset = c.position.offset := by decide
  have hrest : Lexline.tokenize "\n5".toList =
      [⟨.int, "5", some ⟨2, 1, 1⟩⟩, ⟨.eof, endLiteral, some ⟨2, 2, 2⟩⟩] := by cbv
  obtain ⟨⟨p, hp, hlist⟩, hsame⟩ := tokenize_resumes source [.word, .read]
  obtain rfl : p = 2 := by
    have htwo : (2 : Int) = p := (congrArg Position.offset hposition).symm.trans hp
    omega
  have hleft : source.drop 2 = "\n5".toList := by decide
  rw [hleft, hrest] at hlist
  refine ⟨hposition, hoffset, hlist.trans ?_, hrest, (hsame [.next, .peek, .read] hoffset).2.1⟩
  decide

end Cursor

end Lexline
