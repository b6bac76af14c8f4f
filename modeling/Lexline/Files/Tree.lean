import Lexline.Files.FileSystem

/-!
# Trees of files

A tree holds the files and directories of a machine by the names that lead to them from its root.

* `Tree.system` — what every machine has, and the directory in which the program runs.
* `Tree.add` — a tree with one more file or directory.
* `Tree.resolve` — what a walk along the components of a path finds.
* `Tree.fileSystem` — what each path finds.
-/

namespace Lexline

/-- The contents of an entry of a tree. -/
inductive Content where
  | file (bytes : List UInt8)
  | directory
  deriving DecidableEq, Repr

/-- The names that lead to a place from the root. -/
abbrev Place := List String

/-- Entries by their places, where an earlier entry hides a later one of the same place.  The
directories on the way to an entry are there too. -/
abbrev Tree := List (Place × Content)

/-- The longest name of an entry, in bytes. -/
def nameLimit : Nat := 255

/-- The number of bytes from which on a path is too long. -/
def pathLimit : Nat := 4096

/-- The number of bytes of a text. -/
def byteLength (s : String) : Nat := (Text.Utf8.encode s.toList).length

/-! ## Places -/

namespace Place

/-- The directory in which the program runs: one for temporary files, whose own name is empty,
since no component of a path is. -/
def home : Place := ["tmp", ""]

/-- The place at which the walk along a path starts. -/
def start (path : Path) : Place := if path.root = .here then home else []

/-- The place that a component leads to.  Two dots lead back, and from the root to itself. -/
def next (place : Place) (name : String) : Place :=
  if name = ".." then place.dropLast else place ++ [name]

/-- The places on the walk along components, the last one included. -/
def visited (place : Place) : List String → List Place
  | [] => []
  | name :: rest => place.next name :: visited (place.next name) rest

end Place

namespace Tree

/-- What stands at a place. -/
def find? (tree : Tree) (place : Place) : Option Content :=
  match tree.lookup place with
  | some content => some content
  | none => if tree.any (fun entry => place.isPrefixOf entry.1) || place = [] then some .directory
    else none

/-- The tree with contents under a path.  Every directory that the path goes through is made. -/
def add (tree : Tree) (path : Path) (content : Content) : Tree :=
  let places := Place.visited (Place.start path) path.parts
  let passed := places.dropLast.map (fun place => (place, Content.directory))
  (places.getLastD (Place.start path), content) :: tree ++ passed

/-! ## Walks -/

/-- One step of a walk: only a directory leads on. -/
def step (tree : Tree) (place : Place) (name : String) : Except Probe Place :=
  match tree.find? place with
  | some .directory =>
    if name = ".." then .ok (place.next name)
    else if nameLimit < byteLength name then .error .nameTooLong
    else if (tree.find? (place.next name)).isSome then .ok (place.next name)
    else .error .missing
  | _ => .error .notDirectory

/-- A walk along names. -/
def walk (tree : Tree) (place : Place) : List String → Except Probe Place
  | [] => .ok place
  | name :: rest =>
    match tree.step place name with
    | .error probe => .error probe
    | .ok next => walk tree next rest

/-- What a place is. -/
def probeAt (tree : Tree) (place : Place) : Probe :=
  match tree.find? place with
  | some (.file bytes) => .file bytes
  | some .directory => .directory
  | none => .missing

/-- What a walk from a place finds. -/
def resolve (tree : Tree) (place : Place) (parts : List String) : Probe :=
  match tree.walk place parts with
  | .error probe => probe
  | .ok place => tree.probeAt place

/-- What each path finds. -/
def fileSystem (tree : Tree) : FileSystem := fun path =>
  if path.text.toList.contains '\x00' then .embeddedNul
  else if pathLimit ≤ byteLength path.text then .nameTooLong
  else tree.resolve (Place.start path) path.parts

/-- The directories at the root of every machine. -/
def rootDirectories : List String :=
  ["bin", "boot", "dev", "etc", "home", "lib", "media", "mnt", "opt", "proc", "root", "run",
   "sbin", "srv", "sys", "tmp", "usr", "var"]

/-- The directories of a machine's own that programs count on. -/
def innerDirectories : List Place :=
  [["dev", "fd"], ["dev", "pts"], ["dev", "shm"], ["proc", "self"], ["proc", "sys"],
   ["usr", "bin"], ["usr", "lib"], ["usr", "local"], ["usr", "local", "bin"],
   ["usr", "local", "lib"], ["usr", "sbin"], ["usr", "share"], ["var", "cache"], ["var", "lib"],
   ["var", "log"], ["var", "tmp"]]

/-- What every machine has: its directories, the file that is always empty, and the directory in
which the program runs. -/
def system : Tree :=
  (["dev", "null"], .file []) ::
    (Place.home :: rootDirectories.map (fun name => [name]) ++ innerDirectories).map
      (fun place => (place, .directory))

end Tree

end Lexline
