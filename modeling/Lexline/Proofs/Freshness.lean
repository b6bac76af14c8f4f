import Lexline.Server
import Mathlib

/-!
# Diagnostics stay fresh

In whatever order an editor opens, changes and closes documents, what was last published about an
open document fits its text.  The framework that keeps the documents may be any that keeps them by
name, replaces whole texts and asks the server about open documents only.

* `Step.isAbout`, `Step.opens`, `Step.closes`, `Step.texts` — what a step says about a document.
* `Step.outcome`, `Step.answer` — what a step makes of the text of its document, and what is to be
  published for it.
* `step_text?`, `step_published` — **all that a step can do** is that.
* `step_kept`, `after_kept` — one step, and any number of steps, that neither open nor close a
  document that is open.
* `LastOpened` — where a document was last opened, and what came since.
* `session_diagnostics_fresh` — **after every session, the last publication about each open document
  carries the diagnostics of its text**; each step publishes what it should, once, and steps about
  other documents make no difference.
* `Framework.listed` — a framework that keeps a list of documents.
-/

namespace Lexline.Server

/-! ## What a step says about a document -/

/-- The address that a step names. -/
def Step.address : Step → String
  | .opened address _ => address
  | .changed address _ => address
  | .closed address => address

/-- Whether a step is about a document. -/
def Step.isAbout (document : Name) (s : Step) : Bool := nameOf s.address == document

/-- Whether a step opens a document. -/
def Step.opens (document : Name) : Step → Bool
  | .opened address _ => nameOf address == document
  | _ => false

/-- Whether a step closes a document. -/
def Step.closes (document : Name) : Step → Bool
  | .closed address => nameOf address == document
  | _ => false

/-- The texts that the items of a step give a document, in order. -/
def Step.texts (document : Name) : Step → List (List Char)
  | .changed address texts => if nameOf address = document then texts else []
  | _ => []

/-- What a step makes of the text of its document. -/
def Step.outcome (old : Option (List Char)) : Step → Option (List Char)
  | .opened _ text => some text
  | .changed _ texts => old.map texts.getLastD
  | .closed _ => none

/-- What is to be published for a step, by the text that its document has before. -/
def Step.answer (old : Option (List Char)) : Step → List Publication
  | .opened address text => [⟨address, diagnostics text⟩]
  | .changed address texts =>
    match old with
    | none => []
    | some text => [⟨address, diagnostics (texts.getLastD text)⟩]
  | .closed _ => []

/-- The publications of the steps about a document, in order. -/
def publicationsAbout (document : Name) (history : List (Step × List Publication)) :
    List Publication :=
  history.flatMap (fun (s, published) => if s.isAbout document then published else [])

/-- What fits the text of a document. -/
def Publication.Fits (document : Name) (text : List Char) (p : Publication) : Prop :=
  nameOf p.address = document ∧ p.diagnostics = Lexline.diagnostics text

theorem Step.isAbout_iff {document : Name} {s : Step} :
    s.isAbout document = true ↔ nameOf s.address = document := by
  simp [isAbout]

theorem Step.opens_iff {document : Name} {s : Step} : s.opens document = true ↔
    ∃ address text, s = .opened address text ∧ nameOf address = document := by
  cases s <;> simp [opens]

theorem Step.closes_iff {document : Name} {s : Step} :
    s.closes document = true ↔ ∃ address, s = .closed address ∧ nameOf address = document := by
  cases s <;> simp [closes]

theorem Step.texts_of_not_about {document : Name} {s : Step} (h : s.isAbout document = false) :
    s.texts document = [] := by
  cases s with
  | changed _ texts => exact if_neg (by simpa [isAbout, address] using h)
  | opened => rfl
  | closed => rfl

theorem Step.address_of_mem_answer {old : Option (List Char)} {s : Step} {p : Publication}
    (h : p ∈ s.answer old) : p.address = s.address := by
  cases s with
  | opened address text =>
    obtain rfl := List.mem_singleton.1 h
    rfl
  | changed address texts =>
    cases old with
    | none => cases h
    | some text =>
      obtain rfl := List.mem_singleton.1 h
      rfl
  | closed address => cases h

theorem publicationsAbout_append (document : Name) (a b : List (Step × List Publication)) :
    publicationsAbout document (a ++ b) =
      publicationsAbout document a ++ publicationsAbout document b :=
  List.flatMap_append

namespace Framework

variable {f : Framework} {w v : f.Store} {a b : String} {s : Step} {t : List Char}

/-! ## Texts of documents -/

theorem isOpen_eq (w : f.Store) (a : String) : f.isOpen w a = (f.text? w a).isSome := by
  unfold text?
  cases f.isOpen w a <;> rfl

theorem source_of_text? (h : f.text? w a = some t) : f.source w a = t := by
  unfold text? at h
  split at h
  · exact Option.some.inj h
  · cases h

/-- The items of a change of a document leave the others alone. -/
theorem text?_replaceAll_apart (hkept : f.KeepsByName) (h : nameOf b ≠ nameOf a)
    (texts : List (List Char)) : f.text? (f.replaceAll w a texts) b = f.text? w b := by
  induction texts generalizing w with
  | nil => rfl
  | cons text texts ih => exact ih.trans (hkept.replace_apart w a b text h)

/-- Of the items of a change the last one counts, and for a document that is not open none does. -/
theorem text?_replaceAll (hwhole : f.ReplacesWhole) (w : f.Store) (a : String)
    (texts : List (List Char)) :
    f.text? (f.replaceAll w a texts) a = (f.text? w a).map texts.getLastD := by
  induction texts generalizing w with
  | nil =>
    show f.text? w a = _
    cases f.text? w a <;> rfl
  | cons text texts ih =>
    show f.text? (f.replaceAll (f.replace w a text) a texts) a = _
    rw [ih]
    cases hopen : f.isOpen w a with
    | true =>
      obtain ⟨t, ht⟩ := Option.isSome_iff_exists.1 ((isOpen_eq w a).symm.trans hopen)
      rw [hwhole.opened w a text hopen, ht, Option.map_some, Option.map_some, List.getLastD_cons]
    | false =>
      have hclosed : f.text? w a = none := if_neg (by simp [hopen])
      have hstill : f.text? (f.replace w a text) a = none :=
        if_neg (by simp [hwhole.unopened w a text hopen])
      rw [hstill, hclosed]
      rfl

/-! ## One step -/

/-- **What a step does to the documents**: it gives its own document the text that it should have,
and leaves the others alone. -/
theorem step_text? (hkept : f.KeepsByName) (hwhole : f.ReplacesWhole) (w : f.Store) (s : Step)
    (b : String) : f.text? (f.step w s).1 b =
      if nameOf b = nameOf s.address then s.outcome (f.text? w b) else f.text? w b := by
  by_cases h : nameOf b = nameOf s.address
  · rw [if_pos h, hkept.same_name _ b s.address h, hkept.same_name w b s.address h]
    cases s with
    | opened address text => exact hkept.put w address text
    | changed address texts => exact text?_replaceAll hwhole w address texts
    | closed address => exact hkept.remove w address
  · rw [if_neg h]
    cases s with
    | opened address text => exact hkept.put_apart w address b text h
    | changed address texts => exact text?_replaceAll_apart hkept h texts
    | closed address => exact hkept.remove_apart w address b h

/-- **What is published for a step** is the answer to the text of its document. -/
theorem step_published (hkept : f.KeepsByName) (hwhole : f.ReplacesWhole) (hreach : f.ReachesOpen)
    (w : f.Store) (s : Step) : (f.step w s).2 = s.answer (f.text? w s.address) := by
  cases s with
  | opened address text =>
    show [Publication.mk address (diagnostics (f.source (f.put w address text) address))] = _
    rw [source_of_text? (hkept.put w address text)]
    rfl
  | changed address texts =>
    have hafter := text?_replaceAll hwhole w address texts
    show (if f.reaches w address texts then f.validate (f.replaceAll w address texts) address
      else []) = Step.answer (f.text? w address) (.changed address texts)
    rw [hreach, isOpen_eq]
    cases ht : f.text? w address with
    | none => rfl
    | some t =>
      rw [ht] at hafter
      show [Publication.mk address (diagnostics (f.source _ address))] = _
      rw [source_of_text? hafter]
      rfl
  | closed address => rfl

section Step

variable (hkept : f.KeepsByName) (hwhole : f.ReplacesWhole) (hreach : f.ReachesOpen)
include hkept hwhole

/-- A step leaves the documents alone that it is not about. -/
theorem step_frame (h : s.isAbout (nameOf a) = false) :
    f.text? (f.step w s).1 a = f.text? w a := by
  have hother : nameOf a ≠ nameOf s.address := fun heq => by simp [Step.isAbout, heq] at h
  rw [step_text? hkept hwhole, if_neg hother]

/-- Only opening makes a document open. -/
theorem step_not_open (ht : f.text? w a = none) (hopen : s.opens (nameOf a) = false) :
    f.text? (f.step w s).1 a = none := by
  rw [step_text? hkept hwhole, ht]
  split
  · rename_i h
    cases s with
    | opened address text => simp [Step.opens, show nameOf a = nameOf address from h] at hopen
    | changed address texts => rfl
    | closed address => rfl
  · rfl

include hreach

/-- **A step that neither opens nor closes an open document**: the text is the last one that the
step gives it, if it gives any, and what is published about it fits. -/
theorem step_kept (ht : f.text? w a = some t) (hopen : s.opens (nameOf a) = false)
    (hclose : s.closes (nameOf a) = false) {p : Publication} (hp : p.Fits (nameOf a) t) :
    f.text? (f.step w s).1 a = some ((s.texts (nameOf a)).getLastD t) ∧
      ((publicationsAbout (nameOf a) [(s, (f.step w s).2)]).getLastD p).Fits (nameOf a)
        ((s.texts (nameOf a)).getLastD t) := by
  cases habout : s.isAbout (nameOf a) with
  | false =>
    rw [Step.texts_of_not_about habout, step_frame hkept hwhole habout]
    simpa [publicationsAbout, habout] using ⟨ht, hp⟩
  | true =>
    have hname := Step.isAbout_iff.1 habout
    have hown : f.text? w s.address = some t := (hkept.same_name w _ _ hname).trans ht
    rw [step_text? hkept hwhole, if_pos hname.symm, step_published hkept hwhole hreach, hown, ht]
    cases s with
    | opened address text => simp [Step.opens, show nameOf address = nameOf a from hname] at hopen
    | closed address => simp [Step.closes, show nameOf address = nameOf a from hname] at hclose
    | changed address texts =>
      have htexts : (Step.changed address texts).texts (nameOf a) = texts := if_pos hname
      rw [htexts]
      refine ⟨rfl, ?_⟩
      simp only [publicationsAbout, List.flatMap_singleton, habout, if_true]
      exact ⟨hname, rfl⟩

end Step

/-! ## Many steps -/

/-- The documents after some steps. -/
def after (f : Framework) : f.Store → List Step → f.Store
  | w, [] => w
  | w, s :: rest => after f (f.step w s).1 rest

theorem after_append (w : f.Store) (steps more : List Step) :
    f.after w (steps ++ more) = f.after (f.after w steps) more := by
  induction steps generalizing w with
  | nil => rfl
  | cons s steps ih => exact ih _

theorem run_append (w : f.Store) (steps more : List Step) :
    f.run w (steps ++ more) = f.run w steps ++ f.run (f.after w steps) more := by
  induction steps generalizing w with
  | nil => rfl
  | cons s steps ih => exact congrArg (_ :: ·) (ih _)

theorem length_run (w : f.Store) (steps : List Step) : (f.run w steps).length = steps.length := by
  induction steps generalizing w with
  | nil => rfl
  | cons s steps ih => exact congrArg (· + 1) (ih _)

theorem zip_run_cons (w : f.Store) (s : Step) (steps : List Step) :
    (s :: steps).zip (f.run w (s :: steps)) =
      [(s, (f.step w s).2)] ++ steps.zip (f.run (f.step w s).1 steps) := rfl

section Steps

variable (hkept : f.KeepsByName) (hwhole : f.ReplacesWhole) (hreach : f.ReachesOpen)
include hkept hwhole hreach

/-- **Any number of steps that neither open nor close an open document**: its text is the last one
that they give it, and what was last published about it fits. -/
theorem after_kept {steps : List Step} (ht : f.text? w a = some t)
    (hsteps : ∀ s ∈ steps, s.opens (nameOf a) = false ∧ s.closes (nameOf a) = false)
    {p : Publication} (hp : p.Fits (nameOf a) t) :
    f.text? (f.after w steps) a = some ((steps.flatMap (Step.texts (nameOf a))).getLastD t) ∧
      ((publicationsAbout (nameOf a) (steps.zip (f.run w steps))).getLastD p).Fits (nameOf a)
        ((steps.flatMap (Step.texts (nameOf a))).getLastD t) := by
  induction steps generalizing w t p with
  | nil => exact ⟨ht, hp⟩
  | cons s steps ih =>
    obtain ⟨⟨hopen, hclose⟩, hrest⟩ := List.forall_mem_cons.1 hsteps
    obtain ⟨htext, hfits⟩ := step_kept hkept hwhole hreach ht hopen hclose hp
    have hafter := ih htext hrest hfits
    have hlast : ∀ {α : Type} (xs ys : List α) (x : α),
        (xs ++ ys).getLastD x = ys.getLastD (xs.getLastD x) := by
      intro α xs ys x
      simp
    rw [zip_run_cons, publicationsAbout_append, List.flatMap_cons, hlast, hlast]
    exact hafter

/-- **Steps about other documents make no difference** to the text of a document and to what is
published about it. -/
theorem after_filter (steps : List Step) (h : f.text? w a = f.text? v a) :
    f.text? (f.after w steps) a =
        f.text? (f.after v (steps.filter (Step.isAbout (nameOf a)))) a ∧
      publicationsAbout (nameOf a) (steps.zip (f.run w steps)) =
        (f.run v (steps.filter (Step.isAbout (nameOf a)))).flatten := by
  induction steps generalizing w v with
  | nil => exact ⟨h, rfl⟩
  | cons s steps ih =>
    rw [zip_run_cons, publicationsAbout_append]
    cases habout : s.isAbout (nameOf a) with
    | true =>
      have hname := Step.isAbout_iff.1 habout
      -- both documents have one text before the step, so the step does one thing to both
      have hown : f.text? w s.address = f.text? v s.address := by
        rw [hkept.same_name w _ _ hname, hkept.same_name v _ _ hname, h]
      have htext : f.text? (f.step w s).1 a = f.text? (f.step v s).1 a := by
        rw [step_text? hkept hwhole, step_text? hkept hwhole, h]
      have hpublished : (f.step w s).2 = (f.step v s).2 := by
        rw [step_published hkept hwhole hreach, step_published hkept hwhole hreach, hown]
      obtain ⟨hafter, hrest⟩ := ih htext
      rw [List.filter_cons_of_pos habout, hrest]
      refine ⟨hafter, ?_⟩
      simp [publicationsAbout, habout, run, hpublished]
    | false =>
      obtain ⟨hafter, hrest⟩ := ih ((step_frame hkept hwhole habout).trans h)
      rw [List.filter_cons_of_neg (by simp [habout]), hrest]
      refine ⟨hafter, ?_⟩
      simp [publicationsAbout, habout]

/-- Every publication of a session is under the address of the step that it answers. -/
theorem mem_history {steps : List Step} {published : List Publication}
    (h : (s, published) ∈ steps.zip (f.run w steps)) : ∀ p ∈ published, p.address = s.address := by
  induction steps generalizing w with
  | nil => cases h
  | cons first steps ih =>
    rcases List.mem_cons.1 h with heq | h
    · obtain ⟨rfl, rfl⟩ := Prod.mk.inj heq
      rw [step_published hkept hwhole hreach]
      exact fun p hp => Step.address_of_mem_answer hp
    · exact ih h

end Steps

end Framework

/-! ## Where a document was last opened -/

/-- `LastOpened document steps before address given since`: of the steps, those in `before` come
first, then one opens the document with the text `given`, and those in `since` neither open it again
nor close it. -/
structure LastOpened (document : Name) (steps before : List Step) (address : String)
    (given : List Char) (since : List Step) : Prop where
  split : steps = before ++ .opened address given :: since
  named : nameOf address = document
  kept : ∀ s ∈ since, s.opens document = false ∧ s.closes document = false

section Sessions

variable {f : Framework} {a : String} {steps : List Step} (hkept : f.KeepsByName)
  (hwhole : f.ReplacesWhole) (hreach : f.ReachesOpen)
include hkept hwhole

/-- **A document is open because a step opened it** and none closed it since. -/
theorem exists_lastOpened (h : f.text? (f.after f.start steps) a ≠ none) :
    ∃ before address given since, LastOpened (nameOf a) steps before address given since := by
  induction steps using List.reverseRecOn with
  | nil => exact absurd (hkept.start a) h
  | append_singleton steps s ih =>
    rw [Framework.after_append] at h
    cases hopen : s.opens (nameOf a) with
    | true =>
      obtain ⟨address, given, rfl, hname⟩ := Step.opens_iff.1 hopen
      exact ⟨steps, address, given, [], rfl, hname, by simp⟩
    | false =>
      cases hclose : s.closes (nameOf a) with
      | true =>
        obtain ⟨address, rfl, hname⟩ := Step.closes_iff.1 hclose
        refine absurd ?_ h
        show f.text? (f.step (f.after f.start steps) (.closed address)).1 a = none
        rw [Framework.step_text? hkept hwhole]
        exact if_pos hname.symm
      | false =>
        have hbefore : f.text? (f.after f.start steps) a ≠ none :=
          fun hnone => h (Framework.step_not_open hkept hwhole hnone hopen)
        obtain ⟨before, address, given, since, hlast⟩ := ih hbefore
        refine ⟨before, address, given, since ++ [s], ?_, hlast.named, ?_⟩
        · rw [hlast.split]
          simp
        · intro u hu
          rcases List.mem_append.1 hu with hu | hu
          · exact hlast.kept u hu
          · obtain rfl := List.mem_singleton.1 hu
            exact ⟨hopen, hclose⟩

include hreach

/-- **An open document has the last text that it was given**, and what was last published about it
since it was opened fits that text. -/
theorem LastOpened.fits {before : List Step} {address : String} {given : List Char}
    {since : List Step} (h : LastOpened (nameOf a) steps before address given since) :
    f.text? (f.after f.start steps) a =
        some ((since.flatMap (Step.texts (nameOf a))).getLastD given) ∧
      ∃ p, (publicationsAbout (nameOf a)
          ((steps.zip (session f steps)).drop before.length)).getLast? = some p ∧
        p.Fits (nameOf a) ((since.flatMap (Step.texts (nameOf a))).getLastD given) := by
  obtain ⟨rfl, hname, hsince⟩ := h
  -- the session is what came before, the step that opens the document, and what came since
  let w := f.after f.start before
  let v := (f.step w (.opened address given)).1
  have hopened : (f.step w (.opened address given)).2 = [⟨address, diagnostics given⟩] :=
    Framework.step_published hkept hwhole hreach w (.opened address given)
  have htext : f.text? v a = some given := by
    show f.text? (f.step w (.opened address given)).1 a = some given
    rw [Framework.step_text? hkept hwhole]
    exact if_pos hname.symm
  obtain ⟨hafter, hfits⟩ := Framework.after_kept hkept hwhole hreach
    (p := ⟨address, diagnostics given⟩) htext hsince ⟨hname, rfl⟩
  have hhistory : ((before ++ .opened address given :: since).zip
      (session f (before ++ .opened address given :: since))).drop before.length =
        (.opened address given, (f.step w (.opened address given)).2) ::
          since.zip (f.run v since) := by
    have hlength : before.length = (f.run f.start before).length :=
      (Framework.length_run f.start before).symm
    rw [session, Framework.run_append, List.zip_append hlength]
    exact List.drop_left' (by simp [← hlength])
  have habout : (Step.opened address given).isAbout (nameOf a) = true := Step.isAbout_iff.2 hname
  refine ⟨by rw [Framework.after_append]; exact hafter, _, ?_, hfits⟩
  rw [hhistory, hopened]
  simp [publicationsAbout, habout, List.getLast?_cons, List.getLastD_eq_getLast?]

/-! ## Whole sessions -/

theorem session_concat (steps : List Step) (s : Step) :
    session f (steps ++ [s]) =
      session f steps ++ [s.answer (f.text? (f.after f.start steps) s.address)] := by
  rw [← Framework.step_published hkept hwhole hreach]
  exact Framework.run_append f.start steps [s]

end Sessions

/-- **Diagnostics stay fresh.**  The framework keeps documents by name, replaces whole texts, and
asks the server about open documents only.  After every session a document is open exactly if it was
opened and not closed since, its text is then the last one that it was given, and the last
publication about it since it was opened carries the diagnostics of that text.  Opening a document,
and changing one that is open, publishes once, under the address as given.  Closing a document, and
changing one that is not open, publishes nothing.  Steps about other documents make no
difference. -/
theorem session_diagnostics_fresh (f : Framework) (hkept : f.KeepsByName)
    (hwhole : f.ReplacesWhole) (hreach : f.ReachesOpen) (steps : List Step) :
    let w := f.after f.start steps
    let history := steps.zip (session f steps)
    (∀ a text, f.text? w a = some text ↔ ∃ before address given since,
      LastOpened (nameOf a) steps before address given since ∧
        text = (since.flatMap (Step.texts (nameOf a))).getLastD given) ∧
    (∀ a text before address given since, f.text? w a = some text →
      LastOpened (nameOf a) steps before address given since →
        ∃ p, (publicationsAbout (nameOf a) (history.drop before.length)).getLast? = some p ∧
          nameOf p.address = nameOf a ∧ p.diagnostics = diagnostics text) ∧
    (∀ address text, session f (steps ++ [Step.opened address text]) =
      session f steps ++ [[Publication.mk address (diagnostics text)]]) ∧
    (∀ address texts text, f.text? w address = some text →
      session f (steps ++ [Step.changed address texts]) =
        session f steps ++ [[Publication.mk address (diagnostics (texts.getLastD text))]]) ∧
    (∀ address texts, f.text? w address = none →
      session f (steps ++ [Step.changed address texts]) = session f steps ++ [[]]) ∧
    (∀ address, session f (steps ++ [Step.closed address]) = session f steps ++ [[]]) ∧
    (∀ s published, (s, published) ∈ history → ∀ p ∈ published, p.address = s.address) ∧
    (∀ a,
      f.text? w a = f.text? (f.after f.start (steps.filter (Step.isAbout (nameOf a)))) a ∧
      publicationsAbout (nameOf a) history =
        (session f (steps.filter (Step.isAbout (nameOf a)))).flatten) := by
  intro w history
  have hconcat := session_concat hkept hwhole hreach steps
  refine ⟨?_, ?_, fun _ _ => hconcat _, ?_, ?_, fun _ => hconcat _,
    fun _ _ => Framework.mem_history hkept hwhole hreach,
    fun _ => Framework.after_filter hkept hwhole hreach steps rfl⟩
  · intro a text
    constructor
    · intro htext
      obtain ⟨before, address, given, since, hlast⟩ := exists_lastOpened hkept hwhole
        (show f.text? w a ≠ none by rw [htext]; exact Option.some_ne_none text)
      have hgiven := Option.some.inj (htext.symm.trans (hlast.fits hkept hwhole hreach).1)
      exact ⟨before, address, given, since, hlast, hgiven⟩
    · rintro ⟨before, address, given, since, hlast, rfl⟩
      exact (hlast.fits hkept hwhole hreach).1
  · intro a text before address given since htext hlast
    obtain ⟨hgiven, p, hp, hname, hdiagnostics⟩ := hlast.fits hkept hwhole hreach
    obtain rfl := Option.some.inj (htext.symm.trans hgiven)
    exact ⟨p, hp, hname, hdiagnostics⟩
  · intro address texts text htext
    rw [hconcat]
    show _ ++ [Step.answer (f.text? w address) (.changed address texts)] = _
    rw [htext]
    rfl
  · intro address texts hnone
    rw [hconcat]
    show _ ++ [Step.answer (f.text? w address) (.changed address texts)] = _
    rw [hnone]
    rfl

/-! ## A list of documents -/

/-- The framework that keeps the names and the texts of the open documents in a list. -/
@[reducible]
def Framework.listed : Framework where
  Store := List (Name × List Char)
  start := []
  put w a text := (nameOf a, text) :: w.filter (fun d => d.1 != nameOf a)
  replace w a text := w.map (fun d => if d.1 = nameOf a then (d.1, text) else d)
  remove w a := w.filter (fun d => d.1 != nameOf a)
  isOpen w a := (w.lookup (nameOf a)).isSome
  source w a := (w.lookup (nameOf a)).getD []
  reaches w a _ := (w.lookup (nameOf a)).isSome

section Lists

variable (w : List (Name × List Char)) (document other : Name) (text : List Char)

theorem lookup_pair : ((other, text) :: w).lookup document =
    if document = other then some text else w.lookup document := by
  rw [List.lookup_cons]
  by_cases h : document = other
  · simp [h]
  · simp [h, show (document == other) = false by simp [h]]

theorem lookup_filter : (w.filter (fun d => d.1 != other)).lookup document =
    if document = other then none else w.lookup document := by
  induction w with
  | nil => simp
  | cons entry w ih =>
    obtain ⟨name, old⟩ := entry
    rw [lookup_pair]
    by_cases hname : name = other
    · rw [List.filter_cons_of_neg (by simp [hname]), ih, hname]
      by_cases hd : document = other <;> simp [hd]
    · rw [List.filter_cons_of_pos (by simp [hname]), lookup_pair, ih]
      by_cases hd : document = name
      · simp [hd, hname]
      · simp [hd]

theorem lookup_map :
    (w.map (fun d => if d.1 = other then (d.1, text) else d)).lookup document =
      if document = other then (w.lookup document).map (fun _ => text) else w.lookup document := by
  induction w with
  | nil => simp
  | cons entry w ih =>
    obtain ⟨name, old⟩ := entry
    rw [List.map_cons, lookup_pair]
    by_cases hname : name = other
    · rw [if_pos hname, lookup_pair, ih, hname]
      by_cases hd : document = other <;> simp [hd]
    · rw [if_neg hname, lookup_pair, ih]
      by_cases hd : document = name
      · simp [hd, hname]
      · simp [hd]

end Lists

namespace Framework

theorem listed_text? (w : List (Name × List Char)) (a : String) :
    listed.text? w a = w.lookup (nameOf a) := by
  show (if (w.lookup (nameOf a)).isSome then some ((w.lookup (nameOf a)).getD []) else none) = _
  cases w.lookup (nameOf a) <;> rfl

/-- A list of documents keeps them by name. -/
theorem listed_keepsByName : listed.KeepsByName where
  start _ := rfl
  same_name w a b h := by rw [listed_text?, listed_text?, h]
  put w a text := (listed_text? _ a).trans ((lookup_pair ..).trans (if_pos rfl))
  remove w a := (listed_text? _ a).trans ((lookup_filter w ..).trans (if_pos rfl))
  put_apart w a b text h := by
    refine (listed_text? _ b).trans ((lookup_pair ..).trans ?_)
    rw [if_neg h, lookup_filter, if_neg h, listed_text?]
  replace_apart w a b text h := by
    refine (listed_text? _ b).trans ((lookup_map w ..).trans ?_)
    rw [if_neg h, listed_text?]
  remove_apart w a b h := by
    refine (listed_text? _ b).trans ((lookup_filter w ..).trans ?_)
    rw [if_neg h, listed_text?]

/-- A list of documents replaces whole texts. -/
theorem listed_replacesWhole : listed.ReplacesWhole where
  opened w a text h := by
    obtain ⟨old, hold⟩ : ∃ old, List.lookup (nameOf a) w = some old := Option.isSome_iff_exists.1 h
    refine (listed_text? _ a).trans ((lookup_map w ..).trans ?_)
    rw [if_pos rfl, hold]
    rfl
  unopened w a text h := by
    have hnone : List.lookup (nameOf a) w = none :=
      Option.isNone_iff_eq_none.1 (Option.isSome_eq_false_iff.1 h)
    refine (congrArg Option.isSome ((lookup_map w ..).trans (if_pos rfl))).trans ?_
    rw [hnone]
    rfl

theorem listed_reachesOpen : listed.ReachesOpen := fun _ _ _ => rfl

end Framework

/-- One document under two addresses, with a change that has no items, and another document that is
closed in between. -/
theorem session_fresh_under_two_addresses :
    let f := Framework.listed
    let since : List Step := [.opened "file:///c" "?".toList,
      .changed "file:///a b" ["1".toList, "%".toList], .closed "file:///c",
      .changed "file:///a%20b" []]
    let steps := .opened "file:///a%20b" "@".toList :: since
    (f.KeepsByName ∧ f.ReplacesWhole ∧ f.ReachesOpen) ∧
      LastOpened (nameOf "file:///a b") steps [] "file:///a%20b" "@".toList since ∧
      (∃ p, (publicationsAbout (nameOf "file:///a b")
          (steps.zip (session f steps))).getLast? = some p ∧
        nameOf p.address = "file:///a b".toList ∧ p.diagnostics = diagnostics "%".toList) ∧
      session f (steps ++ [.changed "file:///c" []]) = session f steps ++ [[]] := by
  intro f since steps
  have hencoded : nameOf "file:///a%20b" = "file:///a b".toList := by cbv
  have hplain : nameOf "file:///a b" = "file:///a b".toList := by cbv
  have hother : nameOf "file:///c" = "file:///c".toList := by cbv
  have hlast : LastOpened (nameOf "file:///a b") steps [] "file:///a%20b" "@".toList since := by
    refine ⟨rfl, hencoded.trans hplain.symm, ?_⟩
    simp [since, Step.opens, Step.closes, hother, hplain]
  have htext : "%".toList =
      (since.flatMap (Step.texts (nameOf "file:///a b"))).getLastD "@".toList := by
    simp [since, Step.texts, hencoded, hplain]
  obtain ⟨hopen, hfresh, _, _, hunopened, _, _, halone⟩ := session_diagnostics_fresh f
    Framework.listed_keepsByName Framework.listed_replacesWhole Framework.listed_reachesOpen steps
  have hnow := (hopen "file:///a b" "%".toList).2 ⟨[], _, _, since, hlast, htext⟩
  have hclosed : f.text? (f.after f.start steps) "file:///c" = none := by
    have hsteps : steps.filter (Step.isAbout (nameOf "file:///c")) =
        [.opened "file:///c" "?".toList, .closed "file:///c"] := by
      simp [steps, since, Step.isAbout, Step.address, hencoded, hplain, hother]
    rw [(halone _).1, hsteps]
    exact Framework.listed_keepsByName.remove _ "file:///c"
  obtain ⟨p, hp, hname, hdiagnostics⟩ := hfresh _ _ [] _ _ since hnow hlast
  exact ⟨⟨Framework.listed_keepsByName, Framework.listed_replacesWhole,
      Framework.listed_reachesOpen⟩, hlast, ⟨p, hp, hname.trans hplain, hdiagnostics⟩,
    hunopened _ [] hclosed⟩

end Lexline.Server
