import Lexline.Proofs.Lines
import Lexline.Record

/-!
# Records of tokens

* `Limit.hasNumeral_of_natAbs_lt` — a number of few digits can be written.
* `render_text`, `render_json`, `jsonPlace_none`, `jsonPlace_some` — the two forms of a record, and
  the two forms of a place in one.
* `dump_flatMap` — records of several lists are written one list after the other.
* `writeAll_eq` — records are written up to the first number that is too long.
* `isVisible_json` — **a JSON record is made of visible ASCII characters and spaces**.
* `feedLines_dump_json` — hence JSON records are read back line by line.
-/

namespace Lexline

/-- A number of few digits can be written. -/
theorem Limit.hasNumeral_of_natAbs_lt {n : Int} {k : Nat} (hk : k ≤ numeralDigits)
    (hn : n.natAbs < Nat.pow 10 k) : hasNumeral n = true := by
  generalize hbound : numeralDigits = bound at hk
  have hpow : Nat.pow 10 k ≤ Nat.pow 10 bound := Nat.pow_le_pow_right (by decide) hk
  unfold hasNumeral
  rw [hbound]
  exact decide_eq_true (Nat.lt_of_lt_of_le hn hpow)

namespace Record

theorem render_text (lineOffset : Int) (t : Token) : render .text lineOffset t = text t := rfl

theorem render_json (lineOffset : Int) (t : Token) :
    render .json lineOffset t = json lineOffset t := rfl

theorem jsonPlace_none (lineOffset : Int) : jsonPlace lineOffset none = [] := by
  unfold jsonPlace
  rfl

theorem jsonPlace_some (lineOffset : Int) (p : Position) : jsonPlace lineOffset (some p) =
    ", \"line\": ".toList ++ Text.numeral (p.line + lineOffset) ++
      ", \"column\": ".toList ++ Text.numeral p.column := by
  unfold jsonPlace
  rfl

end Record

theorem dump_append (format : Format) (lineOffset : Int) (ts us : List Token) :
    dump format lineOffset (ts ++ us) = dump format lineOffset ts ++ dump format lineOffset us :=
  List.flatMap_append

/-- Records of several lists are written one list after the other. -/
theorem dump_flatMap {α : Type} (format : Format) (lineOffset : Int) (items : List α)
    (f : α → List Token) :
    dump format lineOffset (items.flatMap f) =
      items.flatMap (fun x => dump format lineOffset (f x)) := by
  induction items with
  | nil => rfl
  | cons x items ih => rw [List.flatMap_cons, List.flatMap_cons, dump_append, ih]

/-! ## What is written of several records -/

/-- **Records are written up to the first number that is too long**, and then the limit is met. -/
theorem writeAll_eq (format : Format) (lineOffset : Int) (ts : List Token) :
    writeAll format lineOffset ts =
      (dump format lineOffset (ts.takeWhile (Record.isWritable format lineOffset)),
        if ts.all (Record.isWritable format lineOffset) then none else some .writtenNumeral) := by
  induction ts with
  | nil => rfl
  | cons t ts ih =>
    rw [writeAll, Record.write]
    cases hwritable : Record.isWritable format lineOffset t with
    | false => simp [hwritable, dump]
    | true =>
      rw [if_pos rfl, List.takeWhile_cons_of_pos hwritable, List.all_cons, hwritable, Bool.true_and]
      simp only [ih, dump, List.flatMap_cons, List.append_assoc, List.singleton_append]

/-- Records are all written if each of their numbers can be. -/
theorem writeAll_of_writable {format : Format} {lineOffset : Int} {ts : List Token}
    (h : ∀ t ∈ ts, Record.isWritable format lineOffset t = true) :
    writeAll format lineOffset ts = (dump format lineOffset ts, none) := by
  have htake : ts.takeWhile (Record.isWritable format lineOffset) = ts := by
    rw [← List.append_nil ts, List.takeWhile_append_of_pos h]
    rfl
  rw [writeAll_eq, htake, if_pos (List.all_eq_true.2 h)]

/-- What is written without a limit being met are all the records. -/
theorem dump_of_writeAll {format : Format} {lineOffset : Int} {ts : List Token} {text : List Char}
    (h : writeAll format lineOffset ts = (text, none)) : dump format lineOffset ts = text := by
  by_cases hall : ts.all (Record.isWritable format lineOffset) = true
  · rw [writeAll_of_writable (List.all_eq_true.1 hall)] at h
    exact congrArg Prod.fst h
  · rw [writeAll_eq, if_neg hall] at h
    cases congrArg Prod.snd h

/-! ## The characters of a JSON record -/

namespace Text

/-- A text of visible ASCII characters and spaces. -/
def IsVisible (text : List Char) : Prop := ∀ c ∈ text, 32 ≤ c.toNat ∧ c.toNat ≤ 126

theorem isVisible_of_all {text : List Char}
    (h : text.all (fun c => 32 ≤ c.toNat && c.toNat ≤ 126) = true) : IsVisible text := by
  intro c hc
  simpa using List.all_eq_true.1 h c hc

theorem isVisible_append {a b : List Char} :
    IsVisible (a ++ b) ↔ IsVisible a ∧ IsVisible b :=
  List.forall_mem_append

theorem isVisible_flatMap {α : Type} {items : List α} {f : α → List Char}
    (h : ∀ x ∈ items, IsVisible (f x)) : IsVisible (items.flatMap f) := by
  intro c hc
  obtain ⟨x, hx, hmem⟩ := List.mem_flatMap.1 hc
  exact h x hx c hmem

theorem IsVisible.lf_not_mem {text : List Char} (h : IsVisible text) : '\n' ∉ text := by
  intro hmem
  have hlow : 32 ≤ '\n'.toNat := (h _ hmem).1
  exact absurd hlow (by decide)

theorem isVisible_hex (width n : Nat) : IsVisible (hex width n) := by
  have hdigit : ∀ d < 16, 32 ≤ (hexDigit d).toNat ∧ (hexDigit d).toNat ≤ 126 := by decide
  induction width generalizing n with
  | zero => exact isVisible_of_all rfl
  | succ width ih =>
    refine isVisible_append.2 ⟨ih _, fun c hc => ?_⟩
    obtain rfl := List.mem_singleton.1 hc
    exact hdigit _ (Nat.mod_lt _ (by decide))

theorem isVisible_digits (n : Nat) : IsVisible (digits n) := by
  intro c hc
  have hrange := toNat_of_mem_digits hc
  omega

theorem isVisible_numeral (n : Int) : IsVisible (numeral n) := by
  cases n with
  | ofNat n => exact isVisible_digits n
  | negSucc n =>
    exact isVisible_append (a := ['-']).2 ⟨isVisible_of_all rfl, isVisible_digits (n + 1)⟩

namespace JsonText

theorem isVisible_escapeUnit (unit : Nat) : IsVisible (escapeUnit unit) :=
  isVisible_append (a := ['\\', 'u']).2 ⟨isVisible_of_all rfl, isVisible_hex 4 unit⟩

theorem isVisible_escape (c : Char) : IsVisible (escape c) := by
  unfold escape
  iterate 7
    split
    · exact isVisible_of_all rfl
  split
  · rename_i hshown
    intro x hx
    obtain rfl := List.mem_singleton.1 hx
    exact hshown
  · exact isVisible_flatMap (fun unit _ => isVisible_escapeUnit unit)

theorem isVisible_encode (text : List Char) : IsVisible (encode text) := by
  have hmark : IsVisible ['"'] := isVisible_of_all rfl
  have hbody : IsVisible (text.flatMap escape) := isVisible_flatMap (fun c _ => isVisible_escape c)
  exact isVisible_append (a := ['"']).2 ⟨hmark, isVisible_append.2 ⟨hbody, hmark⟩⟩

end JsonText

end Text

open Text

theorem Record.isVisible_jsonPlace (lineOffset : Int) (p : Option Position) :
    IsVisible (jsonPlace lineOffset p) := by
  cases p with
  | none =>
    rw [jsonPlace_none]
    exact isVisible_of_all rfl
  | some p =>
    rw [jsonPlace_some]
    simp only [isVisible_append, isVisible_numeral, and_true]
    exact ⟨isVisible_of_all (by decide), isVisible_of_all (by decide)⟩

/-- **A JSON record is made of visible ASCII characters and spaces.** -/
theorem Record.isVisible_json (lineOffset : Int) (t : Token) : IsVisible (json lineOffset t) := by
  unfold json
  simp only [isVisible_append, JsonText.isVisible_encode, isVisible_jsonPlace, and_true]
  exact ⟨⟨isVisible_of_all (by decide), isVisible_of_all (by decide)⟩, isVisible_of_all (by decide)⟩

/-- JSON records are read back line by line. -/
theorem feedLines_dump_json (lineOffset : Int) (ts : List Token) :
    feedLines (dump .json lineOffset ts) = ts.map (fun t => Record.json lineOffset t ++ ['\n']) :=
  feedLines_flatMap ts (fun t _ => (Record.isVisible_json lineOffset t).lf_not_mem)

end Lexline
