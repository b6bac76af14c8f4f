import Lexline.Toml.Value

/-!
# Configuration documents

A document is a sequence of statements, one to a line: pairs, table headers, array headers and
comments.

* `State` — the table built so far, the header in force, and the marks on keys.
* `statement` — what one statement does to the state.
* `parse` — the table of a document.
-/

namespace Lexline.Toml

/-- What the statements so far have built.  Tables that dotted keys have made are `pending`: they
count as declared from the next header on. -/
structure State where
  fields : Fields
  header : Key
  marks : Marks
  pending : List Key
  deriving Repr

/-- The state before the first statement. -/
def State.initial : State := ⟨[], [], [], []⟩

/-- The state at a header: the pending tables are declared. -/
def State.settle (s : State) : State :=
  { s with marks := s.marks ++ s.pending.map (fun key => ⟨key, .declared, false⟩), pending := [] }

/-- The keys of the tables that a dotted key goes through, below a header. -/
def wayKeys (header name : Key) : List Key :=
  (List.range (name.length - 1)).map (fun i => header ++ name.take (i + 1))

/-- Puts a pair into the table of the header in force. -/
def State.insertPair (s : State) (name : Key) (value : Datum) : Except Cause State :=
  let way := wayKeys s.header name
  let parent := s.header ++ name.dropLast
  match way.find? (fun key => s.marks.has key .declared) with
  | some key => .error (.redefined key)
  | none =>
    if s.marks.has parent .frozen then .error (.immutable parent)
    else
      let put := Nest.insert (name.getLastD "") value .overwritten
      match Nest.modify true put parent s.fields with
      | .error cause => .error cause
      | .ok fields =>
        let marks :=
          if isContainer value then ⟨s.header ++ name, .frozen, true⟩ :: s.marks else s.marks
        .ok { s with fields := fields, marks := marks, pending := s.pending ++ way }

/-- Opens the table of a header. -/
def State.openTable (s : State) (name : Key) : Except Cause State :=
  if s.marks.has name .declared || s.marks.has name .frozen then .error (.declaredTwice name)
  else
    match Nest.modify true .ok name s.fields with
    | .error cause => .error cause
    | .ok fields =>
      .ok { s with fields := fields, header := name, marks := ⟨name, .declared, false⟩ :: s.marks }

/-- Opens a new table at the end of an array of tables. -/
def State.openItem (s : State) (name : Key) : Except Cause State :=
  if s.marks.has name .frozen then .error (.immutable name)
  else
    match Nest.modify true (Nest.append (name.getLastD "")) name.dropLast s.fields with
    | .error cause => .error cause
    | .ok fields =>
      .ok { s with
        fields := fields, header := name,
        marks := ⟨name, .declared, false⟩ :: s.marks.clear name }

/-- A header: its opening brackets, blanks, a key, and its closing brackets. -/
def headerAt (opening : Nat) (closing : List Char) (cause : Cause)
    (enter : Key → Except Cause State) (text : List Char) : Reading State :=
  let start := opening + blankLength (text.drop opening)
  match key (text.drop start) with
  | .error fault => .error fault
  | .ok (name, n) =>
    let rest := text.drop (start + n)
    match enter name with
    | .error cause => fail cause rest
    | .ok next =>
      if closing.isPrefixOf rest then .ok (next, start + n + closing.length) else fail cause rest

/-- The statement at the start of a text that starts with neither a blank nor a line feed. -/
def statement (room : Nat) (s : State) (text : List Char) : Reading State :=
  match text with
  | [] => .ok (s, 0)
  | '#' :: _ => .ok (s, 0)
  | '[' :: '[' :: _ => headerAt 2 [']', ']'] .expectedArrayEnd s.settle.openItem text
  | '[' :: _ => headerAt 1 [']'] .expectedTableEnd s.settle.openTable text
  | c :: _ =>
    if startsKey c then
      match pair room text with
      | .error fault => .error fault
      | .ok ((name, value), n) =>
        match s.insertPair name value with
        | .error cause => fail cause (text.drop n)
        | .ok next => .ok (next, n)
    else fail .invalidStatement text

/-- The state after all statements of a text. -/
def statements (room : Nat) (s : State) (text : List Char) : Except Fault State :=
  match _h : text.drop (blankLength text) with
  | [] => .ok s
  | '\n' :: rest => statements room s rest
  | c :: rest =>
    match statement room s (c :: rest) with
    | .error fault => .error fault
    | .ok (next, n) =>
      let taken := n + blankLength ((c :: rest).drop n)
      match commentLength ((c :: rest).drop taken) with
      | .error fault => .error fault
      | .ok comment =>
        match _h' : (c :: rest).drop (taken + comment) with
        | [] => .ok next
        | '\n' :: more => statements room next more
        | more => fail .expectedNewline more
termination_by text.length
decreasing_by
  · have := congrArg List.length _h
    simp only [List.length_drop, List.length_cons] at this ⊢
    omega
  · have h1 := congrArg List.length _h
    have h2 := congrArg List.length _h'
    simp only [List.length_drop, List.length_cons] at h1 h2 ⊢
    omega

/-- A text with every CR LF turned into LF; a lone CR stays. -/
def unifyPairs : List Char → List Char
  | [] => []
  | '\r' :: '\n' :: rest => '\n' :: unifyPairs rest
  | c :: rest => c :: unifyPairs rest

/-- A cause together with the document it was found in, and the number of characters left to read
there. -/
structure Malformation where
  cause : Cause
  left : Nat
  document : List Char
  deriving DecidableEq, Repr

/-- The wording of what is wrong with a document, with its place. -/
def Malformation.message (m : Malformation) : String :=
  m.cause.message ++ " (at " ++ describePlace m.document m.left ++ ")"

/-- Why a document gives no table. -/
inductive DocumentFault where
  | malformed (malformation : Malformation)
  | limit (reached : LimitReached)
  deriving DecidableEq, Repr

/-- The room that a document takes from its values. -/
def documentRoom : Nat := 5

/-- The table of a document. -/
def parse (room : Nat) (text : List Char) : Except DocumentFault Fields :=
  let document := unifyPairs text
  match statements (room - documentRoom) .initial document with
  | .error (.malformed cause left) => .error (.malformed ⟨cause, left, document⟩)
  | .error (.limit limit) => .error (.limit limit)
  | .ok s => .ok s.fields

end Lexline.Toml
