import Lexline.Console.Loop
import Lexline.Proofs.Alphabet
import Lexline.Proofs.LineByLine

/-!
# The log of a session

* `heard` — the lines of a session before the first one that ends it.
* `rounds_eq` — what a session writes from the first prompt on: a round for each line that is heard,
  and a last prompt.
* `complaint_eq` — strict mode complains about a line exactly if it has a foreign character, and
  then about the first one.
* `session_log_of_heard` — **the whole log of a session** on a text, and on a text that is
  interrupted where it would end.
-/

namespace Lexline

open Text

namespace Loop

/-- The lines of a session before the first one that ends it. -/
def heard (lines : List (List Char)) : List (List Char) :=
  lines.takeWhile (fun line => !isTerminator line)

theorem heard_cons_of_terminator {line : List Char} (h : isTerminator line = true)
    (rest : List (List Char)) : heard (line :: rest) = [] := by
  simp [heard, h]

theorem heard_cons_of_not {line : List Char} (h : isTerminator line = false)
    (rest : List (List Char)) : heard (line :: rest) = line :: heard rest := by
  simp [heard, h]

theorem not_terminator_of_heard {lines : List (List Char)} :
    ∀ line ∈ heard lines, isTerminator line = false := by
  intro line hline
  have hkept := List.mem_takeWhile_imp hline
  simpa using hkept

/-- Everything up to a line that ends the session is heard, and nothing from it on. -/
theorem heard_append {lines : List (List Char)} (h : ∀ line ∈ lines, isTerminator line = false)
    {stop : List Char} (hstop : isTerminator stop = true) (later : List (List Char)) :
    heard (lines ++ stop :: later) = lines := by
  induction lines with
  | nil => exact heard_cons_of_terminator hstop later
  | cons line lines ih =>
    obtain ⟨hline, hlines⟩ := List.forall_mem_cons.1 h
    rw [List.cons_append, heard_cons_of_not hline, ih hlines]

/-- **From the first prompt on**: the prompt and the answer for each line that is heard, and then a
last prompt.  What stands after it depends on the ending only if no line ends the session. -/
theorem rounds_eq (s : Settings) (ending : Ending) (lines : List (List Char)) :
    rounds s ending lines =
      (heard lines).flatMap (fun line => ask s :: echo s line) ++
        ask s :: (if lines.any isTerminator then [] else farewell ending) := by
  induction lines with
  | nil => rfl
  | cons line lines ih =>
    cases hline : isTerminator line with
    | true =>
      rw [heard_cons_of_terminator hline]
      simp [rounds, answer?, hline]
    | false =>
      rw [heard_cons_of_not hline]
      simp [rounds, answer?, hline, ih]

/-! ## Complaints -/

/-- What strict mode says about a line: a report on its first foreign character, if it has one. -/
def remark (line : List Char) : Log :=
  match line.zipIdx.find? isForeign with
  | none => []
  | some e => [Log.errLine ((Report.ofForeign line e).render Report.consoleName)]

/-- **Strict mode complains about the first foreign character** of a line. -/
theorem complaint_eq (line : List Char) : complaint line = remark line := by
  have hlines : splitLines line = [] ++ (splitLines line ++ []) := by simp
  have hfirst := firstIllegal?_segment hlines
  rw [flatten_splitLines] at hfirst
  unfold complaint remark
  cases hfound : line.zipIdx.find? isForeign with
  | none =>
    rw [hfound] at hfirst
    have hnone : firstIllegal? (scan line) line 0 = none := hfirst
    rw [hnone]
  | some e =>
    rw [hfound] at hfirst
    have hsome : firstIllegal? (scan line) line 0 = some (Report.ofForeign line (e.1, 0 + e.2)) :=
      hfirst
    rw [hsome, Nat.zero_add]

/-! ## Whole sessions -/

/-- **The log of a session on a text**, and nothing else: the banner, if there is one; for each line
before the first one that ends the session, the prompt and the records of the line, and in strict
mode a report on its first foreign character, if it has one; and a last prompt.  Nothing from the
line that ends the session on has a say in it.  An interrupt in place of the end adds a line feed,
unless a line ends the session before. -/
theorem session_log_of_heard (s : Settings) (text : List Char) :
    let lines := feedLines text
    let log := (if s.banner then [Log.out banner.toList] else []) ++
      (heard lines).flatMap (fun line =>
        [Log.out s.prompt.toList, Log.out (dump s.format 0 (tokenize line).dropLast)] ++
          (if s.strict then remark line else [])) ++
      [Log.out s.prompt.toList]
    session s (.ofText text) = log ∧
      (∀ stop later ending, isTerminator stop = true →
        session s ⟨heard lines ++ stop :: later, ending⟩ = log) ∧
      session s (.interrupted text) =
        log ++ (if lines.any isTerminator then [] else [Log.out ['\n']]) := by
  intro lines log
  have hround : ∀ line, ask s :: echo s line =
      [Log.out s.prompt.toList, Log.out (dump s.format 0 (tokenize line).dropLast)] ++
        (if s.strict then remark line else []) := by
    intro line
    rw [echo, complaint_eq, tokenize_dropLast]
    rfl
  have hlog : ∀ ending given, heard given = heard lines → session s ⟨given, ending⟩ =
      log ++ (if given.any isTerminator then [] else farewell ending) := by
    intro ending given hheard
    show greeting s ++ rounds s ending given = _
    rw [rounds_eq, hheard, funext hround]
    simp [log, greeting, ask]
  refine ⟨?_, ?_, ?_⟩
  · show session s ⟨lines, .endOfInput⟩ = log
    rw [hlog .endOfInput lines rfl]
    simp [farewell]
  · intro stop later ending hstop
    have hstopped := hlog ending _ (heard_append not_terminator_of_heard hstop later)
    simpa [hstop] using hstopped
  · exact hlog .interrupt lines rfl

/-- After a lone carriage return a complaint is about the second line of what was heard; the line
that ends the session, what comes after it and the interrupt leave no trace. -/
theorem session_log_until_quit :
    let s : Settings := ⟨"> ", false, .text, true⟩
    let line := "a\r@\n".toList
    let complaint := "error: illegal character '@'\n  --> <stdin>:2:1\n  |\n2 | @\n  | ^"
    isTerminator " quit\n".toList = true ∧
      session s ⟨[line, " quit\n".toList, "%\n".toList], .interrupt⟩ =
        [Log.out "> ".toList, Log.out "IDENT 'a'\nILLEGAL '@'\n".toList,
          Log.errLine complaint.toList, Log.out "> ".toList] := by
  intro s line complaint
  have hstop : isTerminator " quit\n".toList = true := by decide
  have hheard : heard (feedLines line) = [line] := by decide
  have hfirst : (Cursor.start line).next? =
      some (⟨.ident, "a", some ⟨1, 1, 0⟩⟩, ⟨"\r@\n".toList, ⟨1, 2, 1⟩⟩) := by decide
  have hsecond : Cursor.next? ⟨"\r@\n".toList, ⟨1, 2, 1⟩⟩ =
      some (⟨.illegal, "@", some ⟨2, 1, 2⟩⟩, ⟨"\n".toList, ⟨2, 2, 3⟩⟩) := by decide
  have htokens : (tokenize line).dropLast =
      [⟨.ident, "a", some ⟨1, 1, 0⟩⟩, ⟨.illegal, "@", some ⟨2, 1, 2⟩⟩] := by
    rw [tokenize_dropLast, scan, Cursor.tokens_of_some hfirst, Cursor.tokens_of_some hsecond,
      Cursor.tokens_of_none (by decide)]
  have hremark : remark line = [Log.errLine complaint.toList] := by decide
  have hlaw := (session_log_of_heard s line).2.1 " quit\n".toList ["%\n".toList] .interrupt hstop
  rw [hheard, List.flatMap_singleton, htokens, hremark] at hlaw
  exact ⟨hstop, hlaw⟩

end Loop

end Lexline
