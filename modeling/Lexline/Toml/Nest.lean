import Lexline.Datum.Basic
import Lexline.Toml.Fault

/-!
# Nested tables and their marks

* `Nest.modify` — a change to the table that a dotted key leads to; tables on the way are made
  if they are missing.
* `Nest.insert`, `Nest.append` — a new value under a key, a new table in an array of tables.
* `Marks` — which keys must not be declared again, and which must not change any more.
-/

namespace Lexline.Toml

namespace Nest

/-- The fields with a new value for a name, in its old place if it has one. -/
def put (name : String) (value : Datum) : Fields → Fields
  | [] => [(name, value)]
  | (n, v) :: rest => if n = name then (n, value) :: rest else (n, v) :: put name value rest

/-- Changes the table that a key leads to.  With `throughLists` the way may go through the last
table of an array of tables; any other value on it is in the way. -/
def modify (throughLists : Bool) (f : Fields → Except Cause Fields) :
    Key → Fields → Except Cause Fields
  | [], fields => f fields
  | name :: rest, fields =>
    match fields.lookup name with
    | none =>
      match modify throughLists f rest [] with
      | .error cause => .error cause
      | .ok inner => .ok (put name (.table inner) fields)
    | some (.table old) =>
      match modify throughLists f rest old with
      | .error cause => .error cause
      | .ok inner => .ok (put name (.table inner) fields)
    | some (.list items) =>
      match throughLists, items.getLast? with
      | true, some (.table old) =>
        match modify throughLists f rest old with
        | .error cause => .error cause
        | .ok inner => .ok (put name (.list (items.dropLast ++ [.table inner])) fields)
      | _, _ => .error .overwritten
    | some _ => .error .overwritten

/-- Adds a value under a new name. -/
def insert (name : String) (value : Datum) (taken : Cause) (fields : Fields) :
    Except Cause Fields :=
  if (fields.lookup name).isSome then .error taken else .ok (put name value fields)

/-- Adds an empty table to an array of tables, which is made if it is missing. -/
def append (name : String) (fields : Fields) : Except Cause Fields :=
  match fields.lookup name with
  | none => .ok (put name (.list [.table []]) fields)
  | some (.list items) => .ok (put name (.list (items ++ [.table []])) fields)
  | some _ => .error .overwritten

end Nest

/-- What is known about a key. -/
inductive Mark where
  | frozen
  | declared
  deriving DecidableEq, Repr

/-- A mark on a key; a deep one holds for all keys below it too. -/
structure Marking where
  key : Key
  mark : Mark
  deep : Bool
  deriving DecidableEq, Repr

/-- The marks set so far. -/
abbrev Marks := List Marking

namespace Marks

/-- Whether a key has a mark, set on it or deep above it. -/
def has (marks : Marks) (key : Key) (mark : Mark) : Bool :=
  marks.any (fun m =>
    m.mark == mark && (if m.deep then m.key.isPrefixOf key else m.key == key))

/-- The marks without those on a key and below it. -/
def clear (marks : Marks) (key : Key) : Marks :=
  marks.filter (fun m => !key.isPrefixOf m.key)

end Marks

end Lexline.Toml
