import Lexline.Proofs.Arguments
import Lexline.Proofs.ByteLines
import Lexline.Proofs.LoopListing
import Lexline.Proofs.RoundTrip

/-!
# Bad bytes in a session

Ill-formed bytes on the console are replaced, never reported, and what they do stays in their line.

* `byteLines_replace` — the bytes of a line may be replaced by others: the other lines stay.
* `scan_foreign` — a foreign character makes one illegal token wherever it stands in a line, and is
  in no other token.
* `Loop.not_undecodable` — a session that ends with its input reports no decoding fault.
* `Loop.rounds_share` — a line has its own share in the log; all else is the same for every line.
* `bad_bytes_stay_in_line` — **bad bytes stay inside their line**, for every byte string.
-/

namespace Lexline

open Text Text.Utf8

/-! ## Other bytes in the same line -/

theorem isTerminator_nil : isTerminator (consoleLine []) = true := by
  rw [consoleLine, decodeLossy_nil]
  rfl

theorem isTerminator_lf : isTerminator (consoleLine [10]) = true := by
  rw [consoleLine, decodeLossy_ascii (by decide), decodeLossy_nil]
  rfl

/-- **The bytes of a line may be replaced by others** that have no line ending, unless only the line
ending is left: then the other lines stay as they are. -/
theorem byteLines_replace {bytes body body' ending : List UInt8} {lead trail : List (List UInt8)}
    (h : byteLines bytes = lead ++ (body ++ ending) :: trail) (plain : IsPlain (byteText body))
    (plain' : IsPlain (byteText body'))
    (hgoes : isTerminator (consoleLine (body' ++ ending)) = false) :
    byteLines (lead ++ (body' ++ ending) :: trail).flatten =
      lead ++ (body' ++ ending) :: trail := by
  have hcut : Cut (lead.map byteText ++ (byteText body ++ byteText ending) ::
      trail.map byteText) := by
    have hwhole := cut_splitLines (byteText bytes)
    rwa [splitLines_byteText, h, List.map_append, List.map_cons, byteText_append] at hwhole
  have hne : byteText body' ++ byteText ending ≠ [] := by
    intro hnil
    rw [← byteText_append] at hnil
    obtain hnil : body' ++ ending = [] := List.map_eq_nil_iff.1 hnil
    rw [hnil, isTerminator_nil] at hgoes
    cases hgoes
  have hline : IsLine (byteText body' ++ byteText ending) (trail.map byteText).flatten := by
    cases hcut.behind with
    | cons hold _ => exact hold.replace plain plain' hne
  have hhead : (byteText body' ++ byteText ending).head? ≠ some '\n' := by
    rw [← byteText_append] at hline ⊢
    intro hlf
    have hbytes := congrArg (List.map Char.toUInt8) (hline.eq_of_head_lf hlf)
    rw [toUInt8_byteText] at hbytes
    have hfeed : List.map Char.toUInt8 ['\n'] = [10] := by decide
    rw [hbytes, hfeed, isTerminator_lf] at hgoes
    cases hgoes
  refine byteLines_flatten ?_
  rw [List.map_append, List.map_cons, byteText_append]
  exact hcut.replace hline hhead

/-! ## Foreign characters of a line -/

/-- The ending of a line of the console has no say in what its tokens are. -/
theorem scan_consoleLine {raw : List UInt8} {rest : List Char} (h : IsLine (byteText raw) rest) :
    scan (consoleLine raw) = scan (decodeLossy raw) :=
  scan_unifyBreaks (isLine_decodeLossy h)

/-- A token with a foreign character is an illegal one. -/
theorem Token.WellFormed.illegal_of_foreign {t : Token} (h : t.WellFormed) {x : Char}
    (hx : inAlphabet x = false) (hmem : x ∈ t.literal.toList) : t.kind = .illegal := by
  by_contra hkind
  have hlegal := InLexicon.mem_alphabet h hkind x hmem
  rw [hx] at hlegal
  cases hlegal

/-- **A foreign character makes one token wherever it stands in a line**, in order, and is in no
other token of the line. -/
theorem scan_foreign {line rest : List Char} (h : IsLine line rest) {x : Char}
    (hx : inAlphabet x = false) :
    (scan line).filter (fun t => t.literal.toList.contains x) =
      (line.zipIdx.filter (fun e => e.1 == x)).map
        (fun e => Token.ofForeign x ⟨1, e.2 + 1, e.2⟩) := by
  have hkept : (scan line).filter (fun t => t.literal.toList.contains x) =
      ((scan line).filter (fun t => t.kind == .illegal)).filter
        (fun t => t.literal.toList.contains x) := by
    rw [List.filter_filter]
    refine List.filter_congr ?_
    intro t ht
    cases hmem : t.literal.toList.contains x with
    | false => rfl
    | true =>
      have hwell := Cursor.tokens_wellFormed _ t ht
      rw [hwell.illegal_of_foreign hx (List.contains_iff_mem.1 hmem)]
      rfl
  have hplace (n : Nat) (hn : n < line.length) :
      ((Cursor.start line).advance n).position = ⟨1, n + 1, n⟩ := by
    have halong := Cursor.advance_line h.at_end .start hn
    rw [List.append_nil] at halong
    refine halong.trans ?_
    simp [Position.along, Position.start, Int.add_comm]
  have hforeign : (foreignChars line).filter (fun e => e.1 == x) =
      line.zipIdx.filter (fun e => e.1 == x) := by
    unfold foreignChars
    rw [List.filter_filter]
    refine List.filter_congr ?_
    intro e _
    cases heq : e.1 == x with
    | false => rfl
    | true => simp [isForeign, beq_iff_eq.1 heq, hx]
  have hsame : (fun t : Token => t.literal.toList.contains x) ∘
      (fun e : Char × Nat => Token.ofForeign e.1 ((Cursor.start line).advance e.2).position) =
        fun e => e.1 == x := by
    funext e
    show (String.ofList [e.1]).toList.contains x = (e.1 == x)
    rw [String.toList_ofList, List.contains_cons, List.contains_nil, Bool.or_false, BEq.comm]
  have htokens := Cursor.tokens_illegal (Cursor.start line)
  rw [hkept]
  show ((Cursor.start line).tokens.1.filter _).filter _ = _
  rw [htokens, List.filter_map, hsame]
  show ((foreignChars line).filter _).map _ = _
  rw [hforeign]
  refine List.map_congr_left ?_
  intro e he
  obtain ⟨hmem, hchar⟩ := List.mem_filter.1 he
  rw [hplace e.2 (List.snd_lt_of_mem_zipIdx hmem), beq_iff_eq.1 hchar]

/-- **The replacement characters of a line** are the tokens of its pieces that are ill-formed, or
are this character themselves: one for each. -/
theorem scan_replacements {raw : List UInt8} {rest : List Char} (h : IsLine (byteText raw) rest) :
    (scan (consoleLine raw)).filter (fun t => t.literal.toList.contains '\ufffd') =
      ((pieces raw).zipIdx.filter (fun e => e.1.char == '\ufffd')).map
        (fun e => Token.ofForeign '\ufffd' ⟨1, e.2 + 1, e.2⟩) := by
  rw [scan_consoleLine h, scan_foreign (isLine_decodeLossy h) (by decide), decodeLossy,
    List.zipIdx_map, List.filter_map, List.map_map]
  rfl

/-! ## The log of a session, line by line -/

namespace Loop

/-- A report on an illegal character starts with these words. -/
theorem render_illegal_start (literal : String) (p : Position) (source : List Char)
    (filename : String) : "error: illegal character ".toList <+:
      Report.render ⟨Report.illegalMessage literal, p, source⟩ filename := by
  have hmessage : (Report.illegalMessage literal).toList =
      "illegal character ".toList ++ (quote literal).toList := String.toList_append
  have hstart : "error: illegal character ".toList =
      "error: ".toList ++ "illegal character ".toList := by decide
  unfold Report.render
  rw [hmessage, hstart]
  generalize "error: ".toList = first
  generalize "illegal character ".toList = second
  simp only [List.append_assoc]
  exact (List.prefix_append_right_inj _).2 (List.prefix_append _ _)

theorem complaint_start {line : List Char} {w : Write} (h : w ∈ complaint line) :
    "error: illegal character ".toList <+: w.text := by
  unfold complaint firstIllegal? at h
  cases hfound : (scan line).find? (fun t => t.kind == .illegal) with
  | none =>
    rw [hfound] at h
    cases h
  | some t =>
    rw [hfound, Option.map_some] at h
    rw [List.mem_singleton.1 h]
    exact (render_illegal_start ..).trans (List.prefix_append _ _)

/-- **A session that ends with its input reports no decoding fault**: all that it has on standard
error are reports on illegal characters. -/
theorem not_undecodable (s : Settings) (lines : List (List Char)) :
    ∀ w ∈ session s ⟨lines, .endOfInput⟩, w.stream = .err →
      "error: illegal character ".toList <+: w.text := by
  have hout (text : List Char) : (Log.out text).stream ≠ .err := by simp [Log.out]
  intro w hw herr
  have hlog : session s ⟨lines, .endOfInput⟩ = greeting s ++
      ((heard lines).flatMap (fun line => ask s :: echo s line) ++ [ask s]) := by
    show greeting s ++ rounds s .endOfInput lines = _
    rw [rounds_eq]
    simp [farewell]
  rw [hlog] at hw
  rcases List.mem_append.1 hw with hw | hw
  · unfold greeting at hw
    split at hw
    · obtain rfl := List.mem_singleton.1 hw
      exact absurd herr (hout _)
    · cases hw
  rcases List.mem_append.1 hw with hw | hw
  · obtain ⟨line, _, hline⟩ := List.mem_flatMap.1 hw
    rcases List.mem_cons.1 hline with rfl | hline
    · exact absurd herr (hout _)
    rcases List.mem_cons.1 hline with rfl | hline
    · exact absurd herr (hout _)
    split at hline
    · exact complaint_start hline
    · cases hline
  · obtain rfl := List.mem_singleton.1 hw
    exact absurd herr (hout _)

/-- The own part of a line in the log: its records and the complaint about it, unless a line before
it ends the session. -/
def share (s : Settings) (before : List (List Char)) (line : List Char) : Log :=
  if before.any isTerminator then [] else echo s line

/-- **A line that does not end the session has its own share in the log**; what stands before that
and after it is the same for every such line. -/
theorem rounds_share (s : Settings) (ending : Ending) (lead trail : List (List Char)) :
    ∃ before after, ∀ line, isTerminator line = false →
      rounds s ending (lead ++ line :: trail) = before ++ (share s lead line ++ after) := by
  induction lead with
  | nil =>
    refine ⟨[ask s], rounds s ending trail, ?_⟩
    intro line hline
    simp [rounds, answer?, hline, share]
  | cons first lead ih =>
    obtain ⟨before, after, ih⟩ := ih
    cases hfirst : isTerminator first with
    | true =>
      refine ⟨[ask s], [], ?_⟩
      intro line _
      simp [rounds, answer?, hfirst, share]
    | false =>
      refine ⟨ask s :: (echo s first ++ before), after, ?_⟩
      intro line hline
      simp [rounds, answer?, hfirst, ih line hline, share]

end Loop

/-! ## Runs on bytes -/

section Run

variable {p : Platform} {fs : FileSystem} {words : List String} {args : Args} {options : Options}

/-- A run with a prompt and no file to read is a session on the lines of its bytes. -/
theorem run_bytes (hargs : Args.parse p.dropsMark words = .ok args)
    (hoptions : Options.resolve p.room fs args = .ok options) (hinput : options.input = none)
    {prompt : String} (hprompt : options.prompt = .value prompt) (bytes : List UInt8) :
    run p fs (.bytes bytes) words = ⟨.returned 0,
      Loop.session (options.settings prompt) ⟨(byteLines bytes).map consoleLine, .endOfInput⟩⟩ := by
  rw [run_of_prompt hargs hoptions hinput hprompt, ← ofBytesLossy_eq]
  rfl

end Run

/-- **Bad bytes stay inside their line.**  A run with a prompt and no file to read returns 0 and
reports no decoding fault, whatever its bytes are; it is the session on the lines of the bytes, each
decoded by itself.  In every line each ill-formed range makes one illegal token, at its place among
the pieces of the line, and a replacement character is in no other token.  Where the bytes of a line
are replaced by others, without a line ending, and the line ends the session neither before nor
after, the log changes only in the own share of this line.

A parser that keeps the mark leaves every run a prompt.  Where the mark was dropped there may be
none; a stream that refuses this ends the run after the greeting, whatever the bytes are. -/
theorem bad_bytes_stay_in_line (p : Platform) (fs : FileSystem) (words : List String) (args : Args)
    (options : Options) (hargs : Args.parse p.dropsMark words = .ok args)
    (hoptions : Options.resolve p.room fs args = .ok options)
    (hinput : options.input = none) (bytes : List UInt8) :
    let r := run p fs (.bytes bytes) words
    (p.dropsMark = false → ∃ prompt, options.prompt = .value prompt) ∧
    (options.prompt = .bare → p.takesAnything = false →
      r = ⟨.failed .prompt, Loop.greeting (options.settings "")⟩) ∧
    ∀ prompt, options.prompt = .value prompt →
      let s := options.settings prompt
      r.completion = .returned 0 ∧
      (∀ w ∈ r.log, w.stream = .err → ¬ "error: cannot decode input".toList <+: w.text) ∧
      r.log = Loop.session s ⟨(byteLines bytes).map consoleLine, .endOfInput⟩ ∧
      (∀ raw ∈ byteLines bytes,
        (scan (consoleLine raw)).filter (fun t => t.literal.toList.contains '\ufffd') =
          ((pieces raw).zipIdx.filter (fun e => e.1.char == '\ufffd')).map
            (fun e => Token.ofForeign '\ufffd' ⟨1, e.2 + 1, e.2⟩)) ∧
      (∀ lead body body' ending trail, byteLines bytes = lead ++ (body ++ ending) :: trail →
        IsPlain (byteText body) → IsPlain (byteText body') →
        isTerminator (consoleLine (body ++ ending)) = false →
        isTerminator (consoleLine (body' ++ ending)) = false →
        let bytes' := (lead ++ (body' ++ ending) :: trail).flatten
        byteLines bytes' = lead ++ (body' ++ ending) :: trail ∧
        ∃ before after,
          r.log = before ++
            (Loop.share s (lead.map consoleLine) (consoleLine (body ++ ending)) ++ after) ∧
          (run p fs (.bytes bytes') words).log = before ++
            (Loop.share s (lead.map consoleLine) (consoleLine (body' ++ ending)) ++ after)) := by
  intro r
  refine ⟨exists_prompt hargs hoptions,
    fun hprompt hrefuses => run_of_bare hargs hoptions hinput hprompt hrefuses _, ?_⟩
  intro prompt hprompt s
  have hrun (bytes : List UInt8) := run_bytes hargs hoptions hinput hprompt bytes
  have hlog : r.log = Loop.session s ⟨(byteLines bytes).map consoleLine, .endOfInput⟩ :=
    congrArg Run.log (hrun bytes)
  refine ⟨congrArg Run.completion (hrun bytes), ?_, hlog, ?_, ?_⟩
  · intro w hw herr hcannot
    rw [hlog] at hw
    have hillegal := Loop.not_undecodable s _ w hw herr
    -- both would be the start of the same write
    rcases List.prefix_or_prefix_of_prefix hcannot hillegal with hpre | hpre
    · revert hpre
      decide
    · revert hpre
      decide
  · intro raw hraw
    obtain ⟨_, hline⟩ := mem_byteLines hraw
    exact scan_replacements hline
  · intro lead body body' ending trail hlines plain plain' hold hnew bytes'
    have hlines' := byteLines_replace hlines plain plain' hnew
    obtain ⟨before, after, hshare⟩ :=
      Loop.rounds_share s .endOfInput (lead.map consoleLine) (trail.map consoleLine)
    have hsession (raw : List UInt8) (hraw : isTerminator (consoleLine raw) = false) :
        Loop.session s ⟨(lead ++ raw :: trail).map consoleLine, .endOfInput⟩ =
          (Loop.greeting s ++ before) ++
            (Loop.share s (lead.map consoleLine) (consoleLine raw) ++ after) := by
      rw [List.map_append, List.map_cons, Loop.session, hshare _ hraw, List.append_assoc]
    refine ⟨hlines', Loop.greeting s ++ before, after, ?_, ?_⟩
    · rw [hlog, hlines, hsession _ hold]
    · rw [hrun bytes', hlines', hsession _ hnew]

/-- A byte that starts nothing, and in its place two bytes of a sequence that the line ending cuts
short: each is one illegal token, and the line after them is heard as before. -/
theorem bad_bytes_stay_before_line_ending :
    let p : Platform := ⟨100, false, false⟩
    let fs : FileSystem := fun _ => .missing
    let words := ["--no-banner"]
    let r := run p fs (.bytes [97, 255, 13, 98, 10]) words
    let r' := run p fs (.bytes [43, 226, 130, 13, 98, 10]) words
    let illegal := "ILLEGAL '\ufffd'\n"
    r.completion = .returned 0 ∧ r'.completion = .returned 0 ∧
      ∃ before after,
        r.log = before ++ (Log.out ("IDENT 'a'\n" ++ illegal).toList :: after) ∧
        r'.log = before ++ (Log.out ("PLUS '+'\n" ++ illegal).toList :: after) := by
  intro p fs words r r' illegal
  let s : Loop.Settings := ⟨">> ", false, .text, false⟩
  have hargs : Args.parse p.dropsMark words = .ok ⟨none, none, none, none, false, true⟩ := by cbv
  have hoptions : Options.resolve p.room fs ⟨none, none, none, none, false, true⟩ =
      .ok ⟨none, .value ">> ", false, .value .text, false⟩ := by cbv
  have hlines : byteLines [97, 255, 13, 98, 10] = [] ++ ([97, 255] ++ [13]) :: [[98, 10]] := by
    decide
  have hplain : IsPlain (byteText [97, 255]) := List.forall_iff_forall_mem.1 (by decide)
  have hplain' : IsPlain (byteText [43, 226, 130]) := List.forall_iff_forall_mem.1 (by decide)
  have hline : consoleLine ([97, 255] ++ [13]) = ['a', '\ufffd', '\n'] := by cbv
  have hline' : consoleLine ([43, 226, 130] ++ [13]) = ['+', '\ufffd', '\n'] := by cbv
  have hold : isTerminator (consoleLine ([97, 255] ++ [13])) = false := by
    rw [hline]
    decide
  have hnew : isTerminator (consoleLine ([43, 226, 130] ++ [13])) = false := by
    rw [hline']
    decide
  have htokens : scan ['a', '\ufffd', '\n'] =
      [⟨.ident, "a", some ⟨1, 1, 0⟩⟩, ⟨.illegal, "\ufffd", some ⟨1, 2, 1⟩⟩] := by cbv
  have htokens' : scan ['+', '\ufffd', '\n'] =
      [⟨.plus, "+", some ⟨1, 1, 0⟩⟩, ⟨.illegal, "\ufffd", some ⟨1, 2, 1⟩⟩] := by cbv
  have hshare : Loop.share s [] (consoleLine ([97, 255] ++ [13])) =
      [Log.out ("IDENT 'a'\n" ++ illegal).toList] := by
    rw [hline]
    show [Log.out (dump .text 0 (scan ['a', '\ufffd', '\n']))] = _
    rw [htokens]
    decide +kernel
  have hshare' : Loop.share s [] (consoleLine ([43, 226, 130] ++ [13])) =
      [Log.out ("PLUS '+'\n" ++ illegal).toList] := by
    rw [hline']
    show [Log.out (dump .text 0 (scan ['+', '\ufffd', '\n']))] = _
    rw [htokens']
    decide +kernel
  obtain ⟨hcode, _, _, _, hlocal⟩ :=
    (bad_bytes_stay_in_line p fs words _ _ hargs hoptions rfl [97, 255, 13, 98, 10]).2.2 _ rfl
  obtain ⟨hcode', _⟩ :=
    (bad_bytes_stay_in_line p fs words _ _ hargs hoptions rfl [43, 226, 130, 13, 98, 10]).2.2 _ rfl
  obtain ⟨_, before, after, hlog, hlog'⟩ := hlocal _ _ _ _ _ hlines hplain hplain' hold hnew
  refine ⟨hcode, hcode', before, after, hlog.trans ?_, hlog'.trans ?_⟩
  · exact congrArg (fun part => before ++ (part ++ after)) hshare
  · exact congrArg (fun part => before ++ (part ++ after)) hshare'

end Lexline
