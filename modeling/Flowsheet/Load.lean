import Flowsheet.Reading.Workflow
import Flowsheet.Volume
import Flowsheet.Yaml.Read

/-!
# Loading workflows

A workflow is loaded from a document, a text or a file. Loading fails only where the text is no
document or its root is no mapping, or where a strict load meets a fault; everything else is
reported as a diagnostic beside the workflow, one for each fault in its tree.

Loading relies on a parser and on access to files, which `loadTextBy` and `loadFileBy` take as they
are given to them. `loadText` and `loadFile` are these with the parser of `Flowsheet.Yaml` and with
the files of a `Volume`.
-/

namespace Flowsheet

/-- How a workflow is loaded. -/
structure LoadOptions where
  /-- The label of the text in diagnostics. -/
  source : String
  /-- What happens at a fault. -/
  mode : BuildMode
  deriving DecidableEq, Repr

/-- A tolerant load of a text without a label. -/
def LoadOptions.standard : LoadOptions := ⟨"<inline>", .tolerant⟩

/-- The diagnostics of a tree: one for each fault, in the order of `FaultTree.faults`. -/
def FaultTree.diagnostics (source : String) (t : FaultTree) : List Diagnostic :=
  t.faults.map fun e => ⟨e.2.code, source, .path e.1, e.2.message⟩

/-- A loaded workflow. -/
structure Loaded where
  /-- The workflow, with fallbacks for what could not be read. -/
  workflow : Workflow
  /-- What could not be read. -/
  diagnostics : List Diagnostic

/-- Whether everything could be read. -/
def Loaded.isClean (l : Loaded) : Bool := l.diagnostics.isEmpty

/-! ### What loading relies on -/

/-- Why a text is no document, in the words of a parser. -/
structure ParseError where
  /-- The wording, of one line or of several. -/
  message : String
  /-- The line and the column, if they are known. -/
  place : Option (Nat × Nat)
  deriving DecidableEq, Repr

/-- Reads a text as a document. -/
abbrev Parser := String → Except ParseError Document

/-- Reads the text of the file at a path, or says why there is none. -/
abbrev FileAccess := String → Except String String

/-- The parser of `Flowsheet.Yaml`, which knows the place of every problem. -/
def Document.parser : Parser := fun text =>
  (Document.ofYaml text).mapError fun e => ⟨e.problem.message, some (e.line, e.column)⟩

/-- The files of a volume. -/
def Volume.access (v : Volume) : FileAccess := fun path =>
  (v.readText path).mapError FileError.message

/-- The characters before the first line break, which is a line feed or a carriage return and a line
feed; all of them where there is none. -/
def beforeBreak : List Char → List Char
  | [] => []
  | '\n' :: _ | '\r' :: '\n' :: _ => []
  | c :: rest => c :: beforeBreak rest

/-- The first line of a text. -/
def firstLine (s : String) : String := String.ofList (beforeBreak s.toList)

namespace LoadOptions

/-- The error of a text that is no document, reported at a place in it. -/
def unreadable (o : LoadOptions) (message : String) (line column : Nat) : BuildError :=
  .unreadable message (some
    ⟨.parseFailure, o.source, .location line column, firstLine message⟩)

/-- Loads a workflow from a document. -/
def loadDocument (o : LoadOptions) (d : Document) : Except BuildError Loaded :=
  match d.entries? with
  | some entries =>
    (Workflow.read o.mode entries).map fun w => ⟨w, w.faults.diagnostics o.source⟩
  | none => .error (o.unreadable ("workflow root must be a mapping, found " ++ d.kind) 1 1)

/-- Loads a workflow from a text with a given parser. A problem without a place is reported at the
start of the text. -/
def loadTextBy (o : LoadOptions) (parse : Parser) (text : String) : Except BuildError Loaded :=
  match parse text with
  | .ok d => o.loadDocument d
  | .error e =>
    let (line, column) := e.place.getD (1, 1)
    .error (o.unreadable e.message line column)

/-- Loads a workflow from a file with a given parser and given access to files. -/
def loadFileBy (o : LoadOptions) (parse : Parser) (access : FileAccess) (path : String) :
    Except BuildError Loaded :=
  match access path with
  | .ok text => o.loadTextBy parse text
  | .error message => .error (.unopened path message)

/-- Loads a workflow from a text. -/
def loadText (o : LoadOptions) (text : String) : Except BuildError Loaded :=
  o.loadTextBy Document.parser text

/-- Loads a workflow from a file in a volume. -/
def loadFile (o : LoadOptions) (v : Volume) (path : String) : Except BuildError Loaded :=
  o.loadFileBy Document.parser v.access path

end LoadOptions

end Flowsheet
