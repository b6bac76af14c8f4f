import Lexline.Cursor.Tokens
import Lexline.Report
import Lexline.Text.Escape
import Lexline.Text.Line

/-!
# The language server

The illegal characters of a document, as an editor shows them: lines and characters count from
zero, and a range ends one character after it starts.  The server publishes them whenever the editor
opens or changes a document.

* `Diagnostic` — a range and a message about it.
* `Diagnostic.ofToken?` — the diagnostic of a token on a line, if the token is illegal.
* `diagnostics` — the diagnostics of a document, line by line.
* `Framework` — what keeps the documents and calls the server; `KeepsByName`, `ReplacesWhole` and
  `ReachesOpen` are what the server relies on.
* `Framework.step`, `Framework.run` — what one step of the editor publishes, and several in order.
* `session` — the publications of a whole session, step by step.
-/

namespace Lexline

/-- A place in a document. -/
structure Spot where
  line : Int
  character : Int
  deriving DecidableEq, Repr

/-- How grave a diagnostic is. -/
inductive Severity where
  | error
  | warning
  | information
  | hint
  deriving DecidableEq, Repr

/-- A message about a range of a document, with its severity and the name of what found it. -/
structure Diagnostic where
  start : Spot
  stop : Spot
  message : String
  severity : Severity
  source : String
  deriving DecidableEq, Repr

/-- The diagnostic of a token that stands on the line with the given index. -/
def Diagnostic.ofToken? (line : Nat) (t : Token) : Option Diagnostic :=
  match t.kind, t.position with
  | .illegal, some p =>
    some ⟨⟨line, p.column - 1⟩, ⟨line, p.column⟩, Report.illegalMessage t.literal, .error, "nipl"⟩
  | _, _ => none

/-- The diagnostics of one line. -/
def lineDiagnostics (line : Nat) (text : List Char) : List Diagnostic :=
  (scan text).filterMap (Diagnostic.ofToken? line)

/-- The diagnostics of a document. -/
def diagnostics (document : List Char) : List Diagnostic :=
  (Text.splitLines document).zipIdx.flatMap (fun (text, line) => lineDiagnostics line text)

namespace Server

/-! ## Documents -/

/-- A document: its percent-decoded address. -/
abbrev Name := List Char

/-- The document that an address names. -/
def nameOf (address : String) : Name := Text.Percent.decode address.toList

/-- The framework that the server stands on.  It keeps the documents that an editor has open, gives
the text of one at an address, and calls the server.  `replace` is one item of a change, which has
the whole new text; `reaches` says whether a change with these items is passed on to the server. -/
structure Framework where
  Store : Type
  start : Store
  put : Store → String → List Char → Store
  replace : Store → String → List Char → Store
  remove : Store → String → Store
  isOpen : Store → String → Bool
  source : Store → String → List Char
  reaches : Store → String → List (List Char) → Bool

namespace Framework

/-- The text of the document at an address, if it is open. -/
def text? (f : Framework) (w : f.Store) (address : String) : Option (List Char) :=
  if f.isOpen w address then some (f.source w address) else none

/-- **Documents are kept by name.**  Addresses with one percent-decoded form lead to one document,
opening stores its text, closing removes it, and all that is done to a document leaves the others
alone. -/
structure KeepsByName (f : Framework) : Prop where
  start (a : String) : f.text? f.start a = none
  same_name (w : f.Store) (a b : String) (h : nameOf a = nameOf b) : f.text? w a = f.text? w b
  put (w : f.Store) (a : String) (text : List Char) : f.text? (f.put w a text) a = some text
  remove (w : f.Store) (a : String) : f.text? (f.remove w a) a = none
  put_apart (w : f.Store) (a b : String) (text : List Char) (h : nameOf b ≠ nameOf a) :
    f.text? (f.put w a text) b = f.text? w b
  replace_apart (w : f.Store) (a b : String) (text : List Char) (h : nameOf b ≠ nameOf a) :
    f.text? (f.replace w a text) b = f.text? w b
  remove_apart (w : f.Store) (a b : String) (h : nameOf b ≠ nameOf a) :
    f.text? (f.remove w a) b = f.text? w b

/-- **An item of a change replaces the whole text** of an open document, and opens none. -/
structure ReplacesWhole (f : Framework) : Prop where
  opened (w : f.Store) (a : String) (text : List Char) (h : f.isOpen w a = true) :
    f.text? (f.replace w a text) a = some text
  unopened (w : f.Store) (a : String) (text : List Char) (h : f.isOpen w a = false) :
    f.isOpen (f.replace w a text) a = false

/-- **The server is asked for open documents only**: a change reaches it exactly if its document is
open. -/
def ReachesOpen (f : Framework) : Prop :=
  ∀ (w : f.Store) (a : String) (texts : List (List Char)), f.reaches w a texts = f.isOpen w a

end Framework

/-! ## Sessions -/

/-- One step of the editor.  The items of a change are whole texts. -/
inductive Step where
  | opened (address : String) (text : List Char)
  | changed (address : String) (texts : List (List Char))
  | closed (address : String)
  deriving DecidableEq, Repr

/-- The diagnostics published for an address. -/
structure Publication where
  address : String
  diagnostics : List Diagnostic
  deriving DecidableEq, Repr

namespace Framework

/-- The diagnostics of the document at an address are published. -/
def validate (f : Framework) (w : f.Store) (address : String) : List Publication :=
  [⟨address, diagnostics (f.source w address)⟩]

/-- The documents after the items of a change. -/
def replaceAll (f : Framework) (w : f.Store) (address : String) (texts : List (List Char)) :
    f.Store :=
  texts.foldl (fun v text => f.replace v address text) w

/-- What one step of the editor does, and what is published for it.  The server answers when a
document is opened or changed, and has no part in closing one. -/
def step (f : Framework) (w : f.Store) : Step → f.Store × List Publication
  | .opened address text =>
    let v := f.put w address text
    (v, f.validate v address)
  | .changed address texts =>
    let v := f.replaceAll w address texts
    (v, if f.reaches w address texts then f.validate v address else [])
  | .closed address => (f.remove w address, [])

/-- The publications of the steps from some documents on. -/
def run (f : Framework) (w : f.Store) : List Step → List (List Publication)
  | [] => []
  | s :: rest => (f.step w s).2 :: f.run (f.step w s).1 rest

end Framework

/-- The publications of a whole session, step by step. -/
def session (f : Framework) (steps : List Step) : List (List Publication) := f.run f.start steps

end Server

end Lexline
