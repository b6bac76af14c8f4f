import Lexline.Command.Options

/-!
# Flags that are given nothing

A parser that drops the mark `--` leaves a flag with nothing where the mark was attached to it.  One
that keeps the mark leaves every flag with a value.

* `Args.IsFull` — no flag was given nothing.
* `parse_full` — **a parser that keeps the mark gives every flag a value**, step by step along the
  words.
* `prompt_of_resolve` — the prompt of the options is no text exactly if the flag for it was given
  nothing; `exists_prompt`: a parser that keeps the mark leaves every run a prompt.
-/

namespace Lexline

namespace Args

/-- No flag of the arguments was given nothing. -/
structure IsFull (args : Args) : Prop where
  config : args.config ≠ some .bare
  prompt : args.prompt ≠ some .bare
  format : args.format ≠ some .bare

variable {args args' : Args}

theorem isFull_none : IsFull .none where
  config := by simp [none]
  prompt := by simp [none]
  format := by simp [none]

/-- A parser that keeps the mark gives a flag whatever text comes with it. -/
theorem given_keeping (text : String) : given false text = .value text := by simp [given]

theorem IsFull.set (h : args.IsFull) {setting : Setting} {text : String}
    (hset : args.set false setting text = .ok args') : args'.IsFull := by
  cases setting with
  | config =>
    obtain rfl := Except.ok.inj hset
    exact ⟨by simp [given_keeping], h.prompt, h.format⟩
  | prompt =>
    obtain rfl := Except.ok.inj hset
    exact ⟨h.config, by simp [given_keeping], h.format⟩
  | format =>
    simp only [Args.set, givenFormat, given_keeping] at hset
    cases hname : Format.ofName? text with
    | none => simp [hname] at hset
    | some format =>
      obtain rfl : { args with format := some (.value format) } = args' := by
        simpa [hname] using hset
      exact ⟨h.config, h.prompt, by simp⟩

theorem IsFull.setAttached (h : args.IsFull) {flag : Flag} {short : Bool} {text : String}
    (hset : args.setAttached false flag short text = .ok args') : args'.IsFull := by
  cases flag with
  | setting setting => exact h.set hset
  | switch switch =>
    simp only [Args.setAttached] at hset
    split at hset
    · cases hset
    · cases hset

theorem IsFull.turnOn (h : args.IsFull) {switch : Switch} (hset : args.turnOn switch = .ok args') :
    args'.IsFull := by
  cases switch with
  | help => cases hset
  | strict =>
    obtain rfl := Except.ok.inj hset
    exact ⟨h.config, h.prompt, h.format⟩
  | noBanner =>
    obtain rfl := Except.ok.inj hset
    exact ⟨h.config, h.prompt, h.format⟩

/-- What goes to the operand or is left over says nothing about any flag. -/
theorem IsFull.operand {p q : Progress} (h : p.args.IsFull) {text : String} (hq : q.args = p.args) :
    (if p.settled then q else p.settle text).args.IsFull := by
  split
  · rwa [hq]
  · exact ⟨h.config, h.prompt, h.format⟩

/-- **Going through words keeps every flag with a value**, word by word. -/
theorem IsFull.consume {p p' : Progress} {words : List Word} (h : p.args.IsFull)
    (hwords : consume false p words = .ok p') : p'.args.IsFull := by
  induction p, words using consume.induct false with
  | case1 p =>
    obtain rfl := Except.ok.inj hwords
    exact h
  | case2 p text rest ih => exact ih h hwords
  | case3 p text rest ih =>
    rw [Args.consume] at hwords
    exact ih (h.operand rfl) hwords
  | case4 p text rest hrest ih =>
    rw [Args.consume] at hwords
    · exact ih (h.operand rfl) hwords
    · exact hrest
  | case5 p text rest ih =>
    rw [Args.consume] at hwords
    exact ih (h.operand rfl) hwords
  | case6 p rest hrest ih =>
    rw [Args.consume] at hwords
    · refine ih ?_ hwords
      split
      · exact h
      · exact h
    · exact hrest
  | case7 p flag short text rest stop hstop => simp [Args.consume, hstop] at hwords
  | case8 p flag short text rest args hset ih =>
    simp only [Args.consume, hset] at hwords
    exact ih (h.setAttached hset) hwords
  | case9 p setting text rest stop hstop => simp [Args.consume, hstop] at hwords
  | case10 p setting text rest args hset ih =>
    simp only [Args.consume, hset] at hwords
    exact ih (h.set hset) hwords
  | case11 p setting rest hrest =>
    rw [Args.consume] at hwords
    · cases hwords
    · exact hrest
  | case12 p switch rest stop hstop => simp [Args.consume, hstop] at hwords
  | case13 p switch rest args hset ih =>
    simp only [Args.consume, hset] at hwords
    exact ih (h.turnOn hset) hwords

/-- **A parser that keeps the mark gives every flag a value.** -/
theorem parse_full {words : List String} {args : Args} (h : parse false words = .ok args) :
    args.IsFull := by
  unfold parse at h
  split at h
  · cases h
  split at h
  · cases h
  rename_i p hp
  split at h
  · obtain rfl := Except.ok.inj h
    exact IsFull.consume isFull_none hp
  · cases h

end Args

/-! ## The prompt of the options -/

/-- The prompt of a run is no text exactly if the flag for it was given nothing. -/
theorem prompt_of_resolve {room : Nat} {fs : FileSystem} {args : Args} {options : Options}
    (h : Options.resolve room fs args = .ok options) :
    options.prompt = .bare ↔ args.prompt = some .bare := by
  unfold Options.resolve at h
  split at h
  · cases h
  unfold Options.merge at h
  split at h
  · cases h
  split at h
  · cases h
  obtain rfl := Except.ok.inj h
  cases hgiven : args.prompt with
  | none => simp
  | some prompt => simp

/-- Where the flag for the prompt was given nothing, the parser has dropped a mark. -/
theorem Args.dropsMark_of_bare {dropsMark : Bool} {words : List String} {args : Args}
    (hargs : Args.parse dropsMark words = .ok args) (hprompt : args.prompt = some .bare) :
    dropsMark = true := by
  cases dropsMark with
  | true => rfl
  | false => exact absurd hprompt (Args.parse_full hargs).prompt

/-- A parser that keeps the mark leaves every run a prompt that is a text. -/
theorem exists_prompt {dropsMark : Bool} {room : Nat} {fs : FileSystem} {words : List String}
    {args : Args} {options : Options} (hargs : Args.parse dropsMark words = .ok args)
    (hoptions : Options.resolve room fs args = .ok options) (hkeeps : dropsMark = false) :
    ∃ prompt, options.prompt = .value prompt := by
  cases hprompt : options.prompt with
  | value prompt => exact ⟨prompt, rfl⟩
  | bare =>
    have hdrops := Args.dropsMark_of_bare hargs ((prompt_of_resolve hoptions).1 hprompt)
    rw [hkeeps] at hdrops
    cases hdrops

end Lexline
