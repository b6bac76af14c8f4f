import Lexline.Proofs.JsonReading
import Lexline.Proofs.Records
import Lexline.Proofs.TextRecords

/-!
# JSON records

A JSON record shows a token to other programs.  What it shows can be read back from it, as long as
its numbers can be written at all.

* `Record.content`, `Record.object` — what a record shows of a token, and the object that shows it.
* `Record.json_eq_writeObject` — a JSON record is a flat object.
* `Record.read?_json` — it is read back, and `Record.object_injective` so is what it shows.
* `count_dump_json` — there is one line feed for each record.
* `json_records_read_back` — **JSON records are lines of visible ASCII that are read back**.
-/

namespace Lexline

open Text

namespace Record

/-- What a JSON record shows of a token: its kind, its literal, and, if it has a position, its line,
moved by an offset, and its column. -/
def content (lineOffset : Int) (t : Token) : Kind × String × Option (Int × Int) :=
  (t.kind, t.literal, t.position.map (fun p => (p.line + lineOffset, p.column)))

/-- The fields that place a token. -/
def placeFields : Option (Int × Int) → List (String × Json.Scalar)
  | none => []
  | some (line, column) => [("line", .integer line), ("column", .integer column)]

/-- The object that shows a token. -/
def object (shown : Kind × String × Option (Int × Int)) : Datum :=
  match shown with
  | (kind, literal, none) => .table [("type", .text kind.name), ("literal", .text literal)]
  | (kind, literal, some (line, column)) =>
    .table [("type", .text kind.name), ("literal", .text literal), ("line", .integer line),
      ("column", .integer column)]

/-- **A JSON record is a flat object.** -/
theorem json_eq_writeObject (lineOffset : Int) (t : Token) :
    json lineOffset t = Json.writeObject ("type", .text t.kind.name)
      (("literal", .text t.literal) :: placeFields (content lineOffset t).2.2) := by
  have htype : "\x7b\"type\": ".toList = '{' :: (JsonText.encode "type".toList ++ [':', ' ']) := by
    decide
  have hliteral : ", \"literal\": ".toList =
      ',' :: ' ' :: (JsonText.encode "literal".toList ++ [':', ' ']) := by decide
  have hline : ", \"line\": ".toList =
      ',' :: ' ' :: (JsonText.encode "line".toList ++ [':', ' ']) := by decide
  have hcolumn : ", \"column\": ".toList =
      ',' :: ' ' :: (JsonText.encode "column".toList ++ [':', ' ']) := by decide
  unfold json Json.writeObject content
  cases t.position with
  | none =>
    rw [jsonPlace_none, htype, hliteral]
    simp only [Option.map_none, placeFields, List.flatMap_cons, List.flatMap_nil, Json.writeField,
      Json.Scalar.write, List.append_assoc, List.cons_append, List.nil_append, List.append_nil]
  | some p =>
    rw [jsonPlace_some, htype, hliteral, hline, hcolumn]
    simp only [Option.map_some, placeFields, List.flatMap_cons, List.flatMap_nil, Json.writeField,
      Json.Scalar.write, List.append_assoc, List.cons_append, List.nil_append, List.append_nil]

/-- **A JSON record is read back** as the object that shows its token. -/
theorem read?_json (lineOffset : Int) (t : Token) {tail : List Char} (htail : Json.skip tail = []) :
    Json.read? (json lineOffset t ++ tail) = some (object (content lineOffset t)) := by
  rw [json_eq_writeObject, Json.read?_object _ _ htail]
  obtain ⟨kind, literal, position⟩ := t
  cases position <;> rfl

/-- An object shows one kind, one literal and one place. -/
theorem object_injective : Function.Injective object := by
  intro a b h
  obtain ⟨kind, literal, place⟩ := a
  obtain ⟨kind', literal', place'⟩ := b
  have hkind : kind.name = kind'.name → kind = kind' := by
    intro hname
    have hsome : some kind = some kind' := by
      rw [← Kind.ofName?_name kind, hname, Kind.ofName?_name]
    exact Option.some.inj hsome
  cases place <;> cases place' <;> simp only [object] at h <;> simp at h
  · simp [hkind h.1, h.2]
  · simp [hkind h.1, h.2, Prod.ext_iff]

end Record

/-- There is one line feed for each JSON record. -/
theorem count_dump_json (lineOffset : Int) (ts : List Token) :
    (dump .json lineOffset ts).count '\n' = ts.length := by
  have hone : ∀ t, (Record.json lineOffset t ++ ['\n']).count '\n' = 1 := by
    intro t
    have hnone := List.count_eq_zero_of_not_mem (Record.isVisible_json lineOffset t).lf_not_mem
    rw [List.count_append, hnone]
    rfl
  have hones : ts.map (List.count '\n' ∘ fun t => Record.render .json lineOffset t ++ ['\n']) =
      ts.map (fun _ => 1) := by
    refine List.map_congr_left (fun t _ => ?_)
    rw [Function.comp_apply, Record.render_json, hone]
  rw [dump, List.count_flatMap, hones, List.map_const', List.sum_replicate_nat, Nat.mul_one]

theorem dump_json_character (lineOffset : Int) (ts : List Token) :
    ∀ c ∈ dump .json lineOffset ts, c = '\n' ∨ 32 ≤ c.toNat ∧ c.toNat ≤ 126 := by
  intro c hc
  obtain ⟨t, _, hc⟩ := List.mem_flatMap.1 hc
  rcases List.mem_append.1 hc with hc | hc
  · exact .inr (Record.isVisible_json lineOffset t c hc)
  · exact .inl (List.mem_singleton.1 hc)

/-- What is read from the lines of JSON records. -/
theorem read?_dump_json (lineOffset : Int) (ts : List Token) :
    (feedLines (dump .json lineOffset ts)).map Json.read? =
      (ts.map (Record.content lineOffset)).map (fun shown => some (Record.object shown)) := by
  rw [feedLines_dump_json, List.map_map, List.map_map]
  exact List.map_congr_left (fun t _ => Record.read?_json lineOffset t (by decide))

/-- JSON records are written if each of their numbers can be. -/
theorem writeAll_json {lineOffset : Int} {ts : List Token}
    (h : ∀ t ∈ ts, ∀ p ∈ t.position, Limit.hasNumeral (p.line + lineOffset) = true ∧
      Limit.hasNumeral p.column = true) :
    writeAll .json lineOffset ts = (dump .json lineOffset ts, none) := by
  refine writeAll_of_writable ?_
  intro t ht
  unfold Record.isWritable Record.numbers
  cases hp : t.position with
  | none => rfl
  | some p => simpa using h t ht p hp

/-- **JSON records are lines of visible ASCII that are read back.**  If the numbers to be shown are
short enough to be written, the records are: text of visible ASCII characters, with one line feed
for each token, at the end of its record.  Read as JSON, each record is the object of the kind, the
literal and, exactly if the token has a position, the line, moved by the offset, and the column; so
lists of tokens with the same records agree in all of these. -/
theorem json_records_read_back (lineOffset : Int) (ts : List Token)
    (hshort : ∀ t ∈ ts, ∀ p ∈ t.position, Limit.hasNumeral (p.line + lineOffset) = true ∧
      Limit.hasNumeral p.column = true) :
    ∃ text, writeAll .json lineOffset ts = (text, none) ∧
      (∀ c ∈ text, c = '\n' ∨ 32 ≤ c.toNat ∧ c.toNat ≤ 126) ∧
      text.count '\n' = ts.length ∧
      feedLines text = ts.map (fun t => Record.render .json lineOffset t ++ ['\n']) ∧
      (∀ t ∈ ts, Json.read? (Record.render .json lineOffset t) =
        some (Record.object (Record.content lineOffset t))) ∧
      ∀ otherOffset us, writeAll .json otherOffset us = (text, none) →
        ts.map (Record.content lineOffset) = us.map (Record.content otherOffset) := by
  refine ⟨_, writeAll_json hshort, dump_json_character lineOffset ts, count_dump_json lineOffset ts,
    feedLines_dump_json lineOffset ts, ?_, ?_⟩
  · intro t _
    have hread := Record.read?_json lineOffset t (show Json.skip [] = [] from rfl)
    rwa [List.append_nil] at hread
  · intro otherOffset us hus
    have hread := read?_dump_json lineOffset ts
    rw [← dump_of_writeAll hus, read?_dump_json] at hread
    exact ((List.map_inj_right (fun _ _ h => Record.object_injective (Option.some.inj h))).1
      hread).symm

/-- A literal that takes every kind of escape, on a line before the first, and a token without a
position. -/
theorem json_records_escape_everything :
    let marked : Token := ⟨.illegal, "\"\\\n\x7f\u2028😀", some ⟨-3, 2, 0⟩⟩
    let unplaced : Token := ⟨.eof, "", none⟩
    (Limit.hasNumeral (-3 + 1) = true ∧ Limit.hasNumeral 2 = true) ∧
      ∃ text, writeAll .json 1 [marked, unplaced] = (text, none) ∧ text.count '\n' = 2 ∧
        feedLines text =
          [("\x7b\"type\": \"ILLEGAL\", \"literal\": " ++
              "\"\\\"\\\\\\n\\u007f\\u2028\\ud83d\\ude00\", " ++
              "\"line\": -2, \"column\": 2\x7d\n").toList,
            "\x7b\"type\": \"EOF\", \"literal\": \"\"\x7d\n".toList] ∧
        Json.read? (Record.render .json 1 marked) =
          some (.table [("type", .text "ILLEGAL"), ("literal", .text "\"\\\n\x7f\u2028😀"),
            ("line", .integer (-2)), ("column", .integer 2)]) ∧
        Json.read? (Record.render .json 1 unplaced) =
          some (.table [("type", .text "EOF"), ("literal", .text "")]) := by
  intro marked unplaced
  have hline : Limit.hasNumeral (-3 + 1) = true :=
    Limit.hasNumeral_of_natAbs_lt (k := 1) (by decide) (by decide)
  have hcolumn : Limit.hasNumeral 2 = true :=
    Limit.hasNumeral_of_natAbs_lt (k := 1) (by decide) (by decide)
  have hshort : ∀ t ∈ [marked, unplaced], ∀ p ∈ t.position,
      Limit.hasNumeral (p.line + 1) = true ∧ Limit.hasNumeral p.column = true := by
    intro t ht p hp
    simp only [List.mem_cons, List.not_mem_nil, or_false] at ht
    rcases ht with rfl | rfl
    · obtain rfl := Option.some.inj hp
      exact ⟨hline, hcolumn⟩
    · cases hp
  obtain ⟨text, hwritten, _, hcount, hlines, hread, _⟩ :=
    json_records_read_back 1 [marked, unplaced] hshort
  refine ⟨⟨hline, hcolumn⟩, text, hwritten, hcount, ?_, ?_, ?_⟩
  · rw [hlines]
    decide
  · exact hread marked (by simp)
  · exact hread unplaced (by simp)

/-- A line number of one digit too many cannot be written, although it is an integer like any
other, and the token has no record. -/
theorem json_records_number_too_long :
    let last : Token := ⟨.int, "1", some ⟨(Nat.pow 10 Limit.numeralDigits : Nat) - 1, 1, 0⟩⟩
    writeAll .json 1 [last] = ([], some .writtenNumeral) ∧
      ¬ ∃ text, writeAll .json 1 [last] = (text, none) := by
  intro last
  have hlong : Limit.hasNumeral ((Nat.pow 10 Limit.numeralDigits : Nat) - 1 + 1) = false := by
    unfold Limit.hasNumeral
    rw [Int.sub_add_cancel, Int.natAbs_natCast]
    exact decide_eq_false (Nat.lt_irrefl _)
  have hwritable : Record.isWritable .json 1 last = false := by
    unfold Record.isWritable Record.numbers
    rw [List.all_cons, hlong, Bool.false_and]
  have hlimit : writeAll .json 1 [last] = ([], some .writtenNumeral) := by
    rw [writeAll_eq, List.takeWhile_cons_of_neg (by simp [hwritable]), List.all_cons, hwritable,
      Bool.false_and]
    rfl
  refine ⟨hlimit, ?_⟩
  rintro ⟨text, htext⟩
  rw [hlimit] at htext
  cases htext

end Lexline
