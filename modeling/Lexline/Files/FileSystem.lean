import Lexline.Files.Path
import Lexline.Text.Line
import Lexline.Text.Escape
import Lexline.Text.Utf8

/-!
# Files

* `Probe`, `FileSystem` — what opening a path finds, and all paths together.
* `readText` — the text of a file, every line ending turned into a line feed.
* `FileFault.message` — the wording of what can go wrong.
-/

namespace Lexline

/-- What opening a path finds. -/
inductive Probe where
  | file (bytes : List UInt8)
  | directory
  | missing
  | notDirectory
  | nameTooLong
  | embeddedNul
  deriving DecidableEq, Repr

/-- What each path finds. -/
abbrev FileSystem := Path → Probe

/-! ## Reading -/

/-- What can go wrong when a file is read. -/
inductive FileFault where
  | noInput
  | missing (path : Path)
  | directory (path : Path)
  | notDirectory (path : Path)
  | nameTooLong (path : Path)
  | embeddedNul
  | undecodable (fault : Text.Utf8.Fault)
  deriving DecidableEq, Repr

namespace FileFault

/-- The wording of a refusal by the file system. -/
def refusal (number : Nat) (reason : String) (path : Path) : String :=
  "[Errno " ++ Text.numeralString number ++ "] " ++ reason ++ ": " ++ Text.quote path.text

/-- The wording of a fault. -/
def message : FileFault → String
  | noInput => ""
  | missing path => refusal 2 "No such file or directory" path
  | directory path => refusal 21 "Is a directory" path
  | notDirectory path => refusal 20 "Not a directory" path
  | nameTooLong path => refusal 36 "File name too long" path
  | embeddedNul => "embedded null byte"
  | undecodable fault => fault.message

end FileFault

/-- The bytes of a file. -/
def readBytes (fs : FileSystem) (path : Path) : Except FileFault (List UInt8) :=
  match fs path with
  | .file bytes => .ok bytes
  | .directory => .error (.directory path)
  | .missing => .error (.missing path)
  | .notDirectory => .error (.notDirectory path)
  | .nameTooLong => .error (.nameTooLong path)
  | .embeddedNul => .error .embeddedNul

/-- The text of a file. -/
def readText (fs : FileSystem) (path : Path) : Except FileFault (List Char) :=
  match readBytes fs path with
  | .error fault => .error fault
  | .ok bytes =>
    match Text.Utf8.decode bytes with
    | .error fault => .error (.undecodable fault)
    | .ok text => .ok (Text.unifyBreaks text)

end Lexline
