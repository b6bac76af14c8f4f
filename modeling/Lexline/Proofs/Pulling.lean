import Lexline.Proofs.RoundTrip
import Mathlib

/-!
# Pulling tokens

Tokens can be asked for one by one, a few at a time, all before the end, or all with the end token.
However these requests are mixed, and whatever blanks are skipped or characters looked at between
them, they deliver one stream.

* `Move.isPull`, `delivered` — the requests that never stop inside a lexeme, and the tokens in
  their replies.
* `Pulls` — what a way from one cursor to another delivers: the tokens between them, and the end
  token only behind the last one.
* `perform_pulls`, `performAll_pulls` — **every such request pulls**, and so does a run of them.
* `pulls_deliver_one_stream` — **whatever is pulled from a source is a start of its tokens**; the
  end token comes only when all of them are delivered, and always as the same one.
-/

namespace Lexline

/-- Whether a request leaves the cursor at the end of a lexeme or among the blanks after it. -/
def Move.isPull : Move → Bool
  | .next | .peek | .skip | .tokens | .take _ | .tokenize => true
  | .read | .word | .number => false

/-- Whether a request takes everything that is left. -/
def Move.isFull : Move → Bool
  | .tokens | .tokenize => true
  | _ => false

/-- The tokens in a reply. -/
def Reply.delivered : Reply → List Token
  | .token t => [t]
  | .tokens ts => ts
  | .nothing | .character _ | .run _ => []

/-- The tokens in several replies. -/
def delivered (replies : List Reply) : List Token := replies.flatMap Reply.delivered

/-- The tokens of a list without the end tokens. -/
def contents (ts : List Token) : List Token := ts.filter (fun t => t.kind != .eof)

theorem contents_append (a b : List Token) : contents (a ++ b) = contents a ++ contents b :=
  List.filter_append a b

theorem contents_eq_self {ts : List Token} (h : ∀ t ∈ ts, t.kind ≠ .eof) : contents ts = ts :=
  List.filter_eq_self.2 (fun t ht => by simpa using h t ht)

namespace Cursor

/-- The cursor at the end of the text. -/
def finish (c : Cursor) : Cursor := c.advance c.rest.length

theorem finish_advance {c : Cursor} {n : Nat} (h : n ≤ c.rest.length) :
    (c.advance n).finish = c.finish := by
  unfold finish
  rw [← advance_add, advance_rest, List.length_drop]
  congr 1
  omega

theorem finish_of_rest_nil {c : Cursor} (h : c.rest = []) : c.finish = c := by
  rw [finish, h]
  rfl

theorem finish_rest (c : Cursor) : c.finish.rest = [] := by
  rw [finish, advance_rest, List.drop_length]

theorem kind_ne_eof_of_mem_tokens (c : Cursor) : ∀ t ∈ c.tokens.1, t.kind ≠ .eof :=
  fun t ht => (tokens_wellFormed c t ht).kind_ne_eof

/-! ## Pulls -/

/-- `Pulls c out d`: on the way from `c` to `d` the tokens `out` are delivered.  Those that are no
end tokens lead the tokens of `c`, and `d` has the others left; and an end token among them is that
at the end of the text, and stands behind all tokens of `c`. -/
structure Pulls (c : Cursor) (out : List Token) (d : Cursor) : Prop where
  stream : c.tokens.1 = contents out ++ d.tokens.1
  finish_eq : d.finish = c.finish
  ended : ∀ before t after, out = before ++ t :: after → t.kind = .eof →
    t = c.finish.endToken ∧ contents before = c.tokens.1

variable {c d e : Cursor} {out out' : List Token}

theorem Pulls.refl (c : Cursor) : Pulls c [] c := by
  refine ⟨rfl, rfl, ?_⟩
  intro before t after h
  simp at h

/-- One way after another: what comes first is delivered first. -/
theorem Pulls.trans (h : Pulls c out d) (h' : Pulls d out' e) : Pulls c (out ++ out') e := by
  have hstream : c.tokens.1 = contents out ++ d.tokens.1 := h.stream
  refine ⟨?_, h'.finish_eq.trans h.finish_eq, ?_⟩
  · rw [hstream, h'.stream, contents_append, List.append_assoc]
  · intro before t after hsplit heof
    rcases List.append_eq_append_iff.1 hsplit with ⟨before', rfl, hlate⟩ | ⟨early, hout, hearly⟩
    · obtain ⟨ht, hbefore⟩ := h'.ended before' t after hlate heof
      exact ⟨by rw [ht, h.finish_eq], by rw [contents_append, hbefore, hstream]⟩
    · cases early with
      | nil =>
        obtain ⟨ht, hbefore⟩ := h'.ended [] t after (by simpa using hearly.symm) heof
        rw [List.append_nil] at hout
        refine ⟨by rw [ht, h.finish_eq], ?_⟩
        rw [hstream, ← hbefore, hout]
        exact (List.append_nil _).symm
      | cons u early =>
        obtain ⟨rfl, _⟩ := List.cons.inj hearly
        exact h.ended before t early hout heof

theorem pulls_skip (c : Cursor) : Pulls c [] c.skipSpaces := by
  have hsplit : c.rest = c.rest.takeWhile isSpace ++ c.rest.dropWhile isSpace :=
    List.takeWhile_append_dropWhile.symm
  have htokens := tokens_skip hsplit (fun _ => List.mem_takeWhile_imp)
  rw [← skipSpaces_eq_advance] at htokens
  refine ⟨htokens.symm, ?_, ?_⟩
  · rw [skipSpaces_eq_advance, finish_advance]
    exact (List.takeWhile_prefix isSpace).length_le
  · intro before t after h
    simp at h

theorem pulls_next? {t : Token} (h : c.next? = some (t, d)) : Pulls c [t] d := by
  have hkind : t.kind ≠ .eof := by
    refine kind_ne_eof_of_mem_tokens c t ?_
    rw [tokens_of_some h]
    exact List.mem_cons_self
  refine ⟨?_, ?_, ?_⟩
  · rw [tokens_of_some h, contents_eq_self (by simpa using hkind)]
    rfl
  · obtain ⟨lead, w, rest, k, hrest, _, _, _, rfl⟩ := next?_eq_some_iff.1 h
    refine finish_advance ?_
    rw [hrest]
    simp only [List.length_append]
    omega
  · intro before u after hsplit heof
    have hu : u ∈ [t] := by
      rw [hsplit]
      simp
    obtain rfl := List.mem_singleton.1 hu
    exact absurd heof hkind

/-- The end token is delivered where no token is left. -/
theorem pulls_end (h : c.next? = none) : Pulls c [c.skipSpaces.endToken] c.skipSpaces := by
  have hnone : c.tokens.1 = [] := by rw [tokens_of_none h]
  have hskip : Pulls c [] c.skipSpaces := pulls_skip c
  have hrest : c.skipSpaces.rest = [] := by
    rw [skipSpaces_rest]
    exact List.dropWhile_eq_nil_iff.2 (next?_eq_none_iff.1 h)
  refine ⟨?_, hskip.finish_eq, ?_⟩
  · rw [hskip.stream]
    rfl
  · intro before t after hsplit _
    obtain ⟨rfl, rfl, rfl⟩ : before = [] ∧ t = c.skipSpaces.endToken ∧ after = [] := by
      cases before with
      | nil =>
        obtain ⟨ht, hafter⟩ := List.cons.inj hsplit
        exact ⟨rfl, ht.symm, hafter.symm⟩
      | cons u before =>
        obtain ⟨_, hrest⟩ := List.cons.inj hsplit
        simp at hrest
    rw [← hskip.finish_eq, finish_of_rest_nil hrest, hnone]
    exact ⟨rfl, rfl⟩

theorem pulls_next (c : Cursor) : Pulls c [c.next.1] c.next.2 := by
  unfold next
  cases h : c.next? with
  | none => exact pulls_end h
  | some found => exact pulls_next? h

theorem pulls_take (c : Cursor) (n : Nat) : Pulls c (c.take n).1 (c.take n).2 := by
  induction n generalizing c with
  | zero => exact Pulls.refl c
  | succ n ih =>
    rw [take]
    cases h : c.next? with
    | none => exact pulls_skip c
    | some found =>
      obtain ⟨t, d⟩ := found
      exact (pulls_next? h).trans (ih d)

theorem pulls_tokens (c : Cursor) : Pulls c c.tokens.1 c.tokens.2 := by
  induction c using tokens_induct with
  | done c h =>
    rw [tokens_of_none h]
    exact pulls_skip c
  | step c t d h ih =>
    rw [tokens_of_some h]
    exact (pulls_next? h).trans ih

theorem pulls_tokenize (c : Cursor) : Pulls c c.tokenize.1 c.tokenize.2 :=
  (pulls_tokens c).trans (pulls_next c.tokens.2)

/-! ## Requests -/

/-- **Every request that never stops inside a lexeme pulls.** -/
theorem perform_pulls (c : Cursor) {m : Move} (h : m.isPull = true) :
    Pulls c (c.perform m).1.delivered (c.perform m).2 := by
  cases m with
  | next => exact pulls_next c
  | peek => exact Pulls.refl c
  | skip => exact pulls_skip c
  | tokens => exact pulls_tokens c
  | take n => exact pulls_take c n
  | tokenize => exact pulls_tokenize c
  | read => cases h
  | word => cases h
  | number => cases h

/-- **A run of such requests pulls.** -/
theorem performAll_pulls {moves : List Move} (h : ∀ m ∈ moves, m.isPull = true) (c : Cursor) :
    Pulls c (delivered (c.performAll moves).1) (c.performAll moves).2 := by
  induction moves generalizing c with
  | nil => exact Pulls.refl c
  | cons m moves ih =>
    obtain ⟨hm, hmoves⟩ := List.forall_mem_cons.1 h
    exact (perform_pulls c hm).trans (ih hmoves (c.perform m).2)

theorem performAll_append (c : Cursor) (earlier later : List Move) :
    (c.performAll (earlier ++ later)).2 =
      ((c.performAll earlier).2.performAll later).2 := by
  induction earlier generalizing c with
  | nil => rfl
  | cons m earlier ih => exact ih (c.perform m).2

/-- Nothing is left after a request that takes everything. -/
theorem perform_full (c : Cursor) {m : Move} (h : m.isFull = true) :
    (c.perform m).2.tokens.1 = [] := by
  have hend : c.finish.tokens.1 = [] := tokens_blank (by rw [finish_rest]; simp)
  cases m with
  | tokens =>
    show c.tokens.2.tokens.1 = []
    rw [tokens_snd]
    exact hend
  | tokenize =>
    show c.tokenize.2.tokens.1 = []
    rw [tokenize_eq]
    exact hend
  | _ => cases h

/-- The first tokens of a cursor, and the others left. -/
theorem take_eq (c : Cursor) (n : Nat) :
    (c.take n).1 = c.tokens.1.take n ∧ (c.take n).2.tokens.1 = c.tokens.1.drop n := by
  have hfirst : (c.take n).1 = c.tokens.1.take n := by
    induction n generalizing c with
    | zero => rfl
    | succ n ih =>
      rw [take]
      cases h : c.next? with
      | none => rw [tokens_of_none h]; rfl
      | some found =>
        obtain ⟨t, d⟩ := found
        rw [tokens_of_some h, List.take_succ_cons, ← ih d]
  refine ⟨hfirst, ?_⟩
  have hkinds : ∀ t ∈ c.tokens.1.take n, t.kind ≠ .eof :=
    fun t ht => kind_ne_eof_of_mem_tokens c t (List.mem_of_mem_take ht)
  have hstream := (pulls_take c n).stream
  rw [hfirst, contents_eq_self hkinds] at hstream
  exact List.append_cancel_left (hstream.symm.trans (List.take_append_drop n c.tokens.1).symm)

end Cursor

open Cursor

theorem tokenize_eq_finish (source : List Char) :
    tokenize source = scan source ++ [(start source).finish.endToken] :=
  congrArg Prod.fst (tokenize_eq (start source))

/-- **All ways of pulling deliver one stream.**  The requests may ask for one token, for a few, for
all before the end or for all with the end token, and look at characters or skip blanks in between.
The tokens that they deliver, without the end tokens, are a start of the tokens of the source; every
end token that they deliver is that of the source, and comes when all tokens have been delivered;
and a request for everything that is left delivers the last of them.  In particular, the first few
tokens and then all others are the whole list, cut in two. -/
theorem pulls_deliver_one_stream (source : List Char) (moves : List Move)
    (hmoves : ∀ m ∈ moves, m.isPull = true) :
    let pulled := fun ms => delivered ((start source).performAll ms).1
    contents (pulled moves) <+: (tokenize source).dropLast ∧
    (∀ before t after, pulled moves = before ++ t :: after → t.kind = .eof →
      (tokenize source).getLast? = some t ∧ contents before = (tokenize source).dropLast) ∧
    (∀ earlier m later, moves = earlier ++ m :: later → m.isFull = true →
      contents (pulled (earlier ++ [m])) = (tokenize source).dropLast) ∧
    ∀ n, let cut := min n (tokenize source).dropLast.length
      ((start source).performAll [.take n, .tokenize]).1 =
        [.tokens ((tokenize source).take cut), .tokens ((tokenize source).drop cut)] := by
  intro pulled
  rw [tokenize_dropLast]
  have hpulls := performAll_pulls hmoves (start source)
  refine ⟨⟨_, hpulls.stream.symm⟩, ?_, ?_, ?_⟩
  · intro before t after hsplit heof
    obtain ⟨rfl, hbefore⟩ := hpulls.ended before t after hsplit heof
    refine ⟨?_, hbefore⟩
    rw [tokenize_eq_finish, List.getLast?_concat]
  · intro earlier m later hsplit hfull
    have hfirst : ∀ m' ∈ earlier ++ [m], m'.isPull = true := by
      intro m' hm'
      refine hmoves m' ?_
      rw [hsplit, List.append_cons]
      exact List.mem_append_left later hm'
    have hstream := (performAll_pulls hfirst (start source)).stream
    have hnone : ((start source).performAll (earlier ++ [m])).2.tokens.1 = [] := by
      rw [performAll_append]
      exact perform_full _ hfull
    rw [hnone, List.append_nil] at hstream
    exact hstream.symm
  · intro n cut
    obtain ⟨hfirst, hothers⟩ := take_eq (start source) n
    have hend := (pulls_take (start source) n).finish_eq
    have hcut : cut ≤ (scan source).length := Nat.min_le_right ..
    have htake : (scan source).take n = (scan source).take cut := List.take_eq_take_min
    have hdrop : (scan source).drop n = (scan source).drop cut := List.drop_eq_drop_min
    have hlast : ((start source).take n).2.tokenize.1 = (tokenize source).drop cut := by
      rw [tokenize_eq, hothers, tokenize_eq_finish, List.drop_append_of_le_length hcut, ← hdrop,
        ← hend]
      rfl
    show [Reply.tokens ((start source).take n).1,
      Reply.tokens ((start source).take n).2.tokenize.1] = _
    rw [hlast, hfirst, tokenize_eq_finish, List.take_append_of_le_length hcut, ← htake]
    rfl

/-- The end token comes twice behind the last of two tokens, once for the request that met it and
once more with the whole rest, and the characters looked at in between leave no trace. -/
theorem pulls_deliver_past_end :
    let source := "a\r\n5".toList
    let moves : List Move := [.peek, .take 1, .skip, .next, .next, .tokenize]
    let last : Token := ⟨.eof, endLiteral, some ⟨2, 2, 4⟩⟩
    let pulled := delivered ((start source).performAll moves).1
    (∀ m ∈ moves, m.isPull = true) ∧
      pulled = [⟨.ident, "a", some ⟨1, 1, 0⟩⟩, ⟨.int, "5", some ⟨2, 1, 3⟩⟩, last, last] ∧
      last.kind = .eof ∧ (tokenize source).getLast? = some last ∧
      contents (pulled.take 2) = (tokenize source).dropLast ∧
      contents pulled = (tokenize source).dropLast := by
  intro source moves last pulled
  have hmoves : ∀ m ∈ moves, m.isPull = true := by decide
  have hpulled : pulled =
      [⟨.ident, "a", some ⟨1, 1, 0⟩⟩, ⟨.int, "5", some ⟨2, 1, 3⟩⟩, last, last] := by
    show delivered ((start source).performAll moves).1 = _
    cbv
  obtain ⟨_, hended, hfull, _⟩ := pulls_deliver_one_stream source moves hmoves
  obtain ⟨hlast, hbefore⟩ := hended [⟨.ident, "a", some ⟨1, 1, 0⟩⟩, ⟨.int, "5", some ⟨2, 1, 3⟩⟩]
    last [last] hpulled rfl
  refine ⟨hmoves, hpulled, rfl, hlast, ?_, ?_⟩
  · rw [hpulled]
    exact hbefore
  · exact hfull [.peek, .take 1, .skip, .next, .next] .tokenize [] rfl rfl

end Lexline
