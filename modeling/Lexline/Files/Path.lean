import Lexline.Text.Character

/-!
# Paths

* `Path` — where a path starts, and its components.  Empty components and single dots are left
  out; two dots stay, since only the file system knows where they lead.
* `Path.ofText`, `Path.text` — reading a path, and its normal form.
* `Path.parent`, `Path.child` — the directory of a path, and a name in a directory.
-/

namespace Lexline

/-- Where a path starts.  Exactly two slashes at the start of a path are kept apart from one. -/
inductive Root where
  | here
  | slash
  | doubleSlash
  deriving DecidableEq, Repr

/-- The slashes at the start of a path. -/
def Root.text : Root → String
  | .here => ""
  | .slash => "/"
  | .doubleSlash => "//"

/-- A path in normal form. -/
structure Path where
  root : Root
  parts : List String
  deriving DecidableEq, Repr

namespace Path

/-- The root that a number of leading slashes denotes. -/
def rootOf : Nat → Root
  | 0 => .here
  | 2 => .doubleSlash
  | _ => .slash

/-- The path that a text denotes. -/
def ofText (s : String) : Path :=
  let chars := s.toList
  let pieces := (Text.piecesBetween '/' chars).filter (fun p => p != [] && p != ['.'])
  ⟨rootOf (chars.takeWhile (· == '/')).length, pieces.map String.ofList⟩

/-- The directory in which the program runs. -/
def current : Path := ⟨.here, []⟩

/-- The text of a path. -/
def text (p : Path) : String :=
  if p = current then "." else p.root.text ++ "/".intercalate p.parts

/-- The directory that holds a path.  A path without components is its own. -/
def parent (p : Path) : Path := ⟨p.root, p.parts.dropLast⟩

/-- A name in a directory. -/
def child (p : Path) (name : String) : Path := ⟨p.root, p.parts ++ [name]⟩

end Path

end Lexline
