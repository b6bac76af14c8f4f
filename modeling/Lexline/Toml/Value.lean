import Lexline.Toml.Nest
import Lexline.Toml.Scalar

/-!
# Values of a configuration

* `Demand` — the room that a value takes to be read, by its first characters.
* `value` — a text, a truth value, an array, an inline table, a date, a time or a number.
* `pair` — a key, an equals sign and a value.

Arrays may spread over lines and hold comments; inline tables may not.  Values inside values take
room, and there is only so much of it.
-/

namespace Lexline.Toml

/-- A value that no change may reach into: an array or an inline table. -/
def isContainer : Datum → Bool
  | .list _ => true
  | .table _ => true
  | _ => false

/-- Reads the characters of a text as a value. -/
def asText : Reading (List Char) → Reading Datum
  | .error fault => .error fault
  | .ok (text, n) => .ok (.text (String.ofList text), n)

/-- A key, the equals sign after it and the blanks around it. -/
def keyEquals (text : List Char) : Reading Key :=
  match key text with
  | .error fault => .error fault
  | .ok (name, n) =>
    match text.drop n with
    | '=' :: rest => .ok (name, n + 1 + blankLength rest)
    | rest => fail .expectedEquals rest

/-- Adds a pair of an inline table to its fields. -/
def insertPair (marks : Marks) (name : Key) (value : Datum) (fields : Fields) :
    Except Cause Fields :=
  if marks.has name .frozen then .error (.immutable name)
  else
    let last := name.getLastD ""
    Nest.modify false (Nest.insert last value (.duplicateKey last)) name.dropLast fields

/-! ## Room -/

/-- The room that an array takes from the values in it. -/
def arrayRoom : Nat := 2

/-- The room that an inline table takes from the values in it. -/
def tableRoom : Nat := 3

/-- The room without which a value is not read, and the smaller rooms that run out inside it. -/
structure Demand where
  room : Nat
  insideAt : List Nat
  deriving DecidableEq, Repr

/-- The room that any value can do with. -/
def greatestDemand : Nat := 5

/-- Whether a text starts with a truth value. -/
def startsTruth (text : List Char) : Bool :=
  ['t', 'r', 'u', 'e'].isPrefixOf text || ['f', 'a', 'l', 's', 'e'].isPrefixOf text

/-- The demand of the value at the start of a text. -/
def demand (text : List Char) : Demand :=
  match text with
  | '"' :: '"' :: '"' :: _ => ⟨3, [1, 2]⟩
  | '"' :: _ => ⟨2, []⟩
  | '\x27' :: '\x27' :: '\x27' :: _ => ⟨3, [1, 2]⟩
  | '\x27' :: _ => ⟨3, [2]⟩
  | '[' :: _ => ⟨3, []⟩
  | '{' :: rest =>
    if (rest.drop (blankLength rest)).head? = some '}' then ⟨3, [1]⟩ else ⟨greatestDemand, [1]⟩
  | _ =>
    if startsTruth text || (specialAt? text).isSome then ⟨1, []⟩
    else
      match scalar text with
      | .error (.malformed .invalidValue _) => ⟨3, [2]⟩
      | _ => ⟨2, [1]⟩

/-- The limit that the value at the start of a text meets for want of room. -/
def shortage? (room : Nat) (text : List Char) : Option LimitReached :=
  if greatestDemand ≤ room then none
  else if (demand text).room ≤ room then none
  else some (.readNesting ((demand text).insideAt.contains room))

/-! ## Reading -/

/-- Reading on from the same place or a later one, at a lower level. -/
theorem lex_of_le {a b : Nat} (h : a ≤ b) :
    Prod.Lex (fun a b => a < b) (fun a b => a < b) (a, 0) (b, 1) := by
  rcases Nat.lt_or_eq_of_le h with h | rfl
  · exact Prod.Lex.left _ _ h
  · exact Prod.Lex.right _ (by decide)

mutual

/-- A value at the start of a text. -/
def value (room : Nat) (text : List Char) : Reading Datum :=
  match shortage? room text with
  | some limit => .error (.limit limit)
  | none =>
    match text with
    | '"' :: _ => asText (anyBasicText text)
    | '\x27' :: _ => asText (anyLiteralText text)
    | '[' :: rest =>
      match fillerLength rest with
      | .error fault => .error fault
      | .ok filler =>
        match items (room - arrayRoom) (rest.drop filler) with
        | .error fault => .error fault
        | .ok (values, n) => .ok (.list values, 1 + filler + n)
    | '{' :: rest =>
      let blank := blankLength rest
      match rest.drop blank with
      | '}' :: _ => .ok (.table [], 1 + blank + 1)
      | _ =>
        match pairs (room - tableRoom) [] [] (rest.drop blank) with
        | .error fault => .error fault
        | .ok (fields, n) => .ok (.table fields, 1 + blank + n)
    | _ =>
      if ['t', 'r', 'u', 'e'].isPrefixOf text then .ok (.boolean true, 4)
      else if ['f', 'a', 'l', 's', 'e'].isPrefixOf text then .ok (.boolean false, 5)
      else scalar text
termination_by (text.length, 0)

/-- The items of an array, up to and with its closing bracket. -/
def items (room : Nat) (text : List Char) : Reading (List Datum) :=
  if text.head? = some ']' then .ok ([], 1)
  else
    match value room text with
    | .error fault => .error fault
    | .ok (item, n) =>
      match fillerLength (text.drop n) with
      | .error fault => .error fault
      | .ok filler =>
        match _h : text.drop (n + filler) with
        | ']' :: _ => .ok ([item], n + filler + 1)
        | ',' :: rest =>
          match fillerLength rest with
          | .error fault => .error fault
          | .ok more =>
            match items room (rest.drop more) with
            | .error fault => .error fault
            | .ok (others, m) => .ok (item :: others, n + filler + 1 + more + m)
        | rest => fail .unclosedArray rest
termination_by (text.length, 1)
decreasing_by
  · exact lex_of_le (Nat.le_refl _)
  · apply Prod.Lex.left
    have := congrArg List.length _h
    simp only [List.length_drop, List.length_cons] at this ⊢
    omega

/-- The pairs of an inline table, up to and with its closing brace.  `fields` and `marks` hold
what the pairs before have set. -/
def pairs (room : Nat) (fields : Fields) (marks : Marks) (text : List Char) : Reading Fields :=
  match keyEquals text with
  | .error fault => .error fault
  | .ok (name, start) =>
    match value room (text.drop start) with
    | .error fault => .error fault
    | .ok (item, n) =>
      match insertPair marks name item fields with
      | .error cause => fail cause (text.drop (start + n))
      | .ok fields =>
        let blank := blankLength (text.drop (start + n))
        match _h : text.drop (start + n + blank) with
        | '}' :: _ => .ok (fields, start + n + blank + 1)
        | ',' :: rest =>
          let marks := if isContainer item then ⟨name, .frozen, true⟩ :: marks else marks
          let more := blankLength rest
          match pairs room fields marks (rest.drop more) with
          | .error fault => .error fault
          | .ok (fields, m) => .ok (fields, start + n + blank + 1 + more + m)
        | rest => fail .unclosedTable rest
termination_by (text.length, 1)
decreasing_by
  · exact lex_of_le (by simp only [List.length_drop]; omega)
  · apply Prod.Lex.left
    have := congrArg List.length _h
    simp only [List.length_drop, List.length_cons] at this ⊢
    omega

end

/-- A key, an equals sign and a value at the start of a text. -/
def pair (room : Nat) (text : List Char) : Reading (Key × Datum) :=
  match keyEquals text with
  | .error fault => .error fault
  | .ok (name, start) =>
    match value room (text.drop start) with
    | .error fault => .error fault
    | .ok (item, n) => .ok ((name, item), start + n)

end Lexline.Toml
