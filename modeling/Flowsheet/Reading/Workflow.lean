import Flowsheet.Reading.Entity

/-!
# Reading workflows

How the fields of each entity are read. Configurations nest without bound, so `Config.readTo` reads
them up to a depth and `Config.read` gives it the depth of the document at hand.
-/

namespace Flowsheet

/-! ### Entities without nesting of their own -/

/-- A rectangle is four numbers. -/
def Bounds.readers : (Entity.layout Bounds).Readers
  | .x | .y | .width | .height => Document.asInt32

/-- Reads a rectangle. -/
def Bounds.read : BuildMode → Document → Reading Bounds := Entity.read Bounds.readers

/-- The fields of a port. -/
def Port.readers : (Entity.layout Port).Readers
  | .index => Document.asUInt32
  | .portType => Document.asPortType
  | .name => Document.asString

/-- Reads a port; one that cannot be read is a placeholder. -/
def Port.reader : ItemReader Port := ⟨Entity.read Port.readers, Entity.placeholder Port⟩

/-- Reads a point; one that cannot be read is the origin. -/
def Coordinate.reader : ItemReader Coordinate :=
  ⟨fun _ d => .ok d.asCoordinate, Coordinate.origin⟩

/-- The fields of a connection. -/
def Connection.readers : (Entity.layout Connection).Readers
  | .sourceId | .destId => Document.asInt32
  | .sourcePort | .destPort => Document.asUInt32
  | .deletable => Document.asBool
  | .bendPoints => Coordinate.reader

/-- Reads a connection; one that cannot be read is a placeholder. -/
def Connection.reader : ItemReader Connection :=
  ⟨Entity.read Connection.readers, Entity.placeholder Connection⟩

/-- The fields of an annotation. -/
def Annotation.readers : (Entity.layout Annotation).Readers
  | .text => Document.asString
  | .bounds => Bounds.read
  | .borderSize => Document.asInt32

/-- Reads an annotation; one that cannot be read is a placeholder. -/
def Annotation.reader : ItemReader Annotation :=
  ⟨Entity.read Annotation.readers, Entity.placeholder Annotation⟩

/-! ### Configurations -/

/-- A configuration's value is a scalar. -/
def ConfigValue.readers : (Entity.layout ConfigValue).Readers
  | .value => Document.asScalar

/-- The children of a map are read by `child`; one that cannot be read is an empty map. -/
def ConfigMap.readers (child : BuildMode → Document → Reading Config) :
    (Entity.layout ConfigMap).Readers
  | .children => ⟨child, Config.emptyMap⟩

/-- Reads a configuration from the entries of a mapping: a map if there is an entry for children,
else a value if there is an entry for one. A null counts as an entry here. -/
def Config.readEntries (child : BuildMode → Document → Reading Config) (mode : BuildMode)
    (entries : List (String × Document)) : Reading Config :=
  if Assoc.contains (ConfigMap.layout.name .children) entries then
    (Entity.readEntries (ConfigMap.readers child) mode entries).map fun m => .ok m.toConfig
  else if Assoc.contains (ConfigValue.layout.name .value) entries then
    (Entity.readEntries ConfigValue.readers mode entries).map fun v => .ok v.toConfig
  else .ok (.error (.mismatch "config entry with 'children' or 'value'" "mapping"))

/-- Reads a configuration from a document of at most the given depth. -/
def Config.readTo : Nat → BuildMode → Document → Reading Config
  | 0, _, d => .ok (.error (d.mismatch "mapping"))
  | depth + 1, mode, d =>
    match d.asEntries with
    | .ok entries => Config.readEntries (Config.readTo depth) mode entries
    | .error e => .ok (.error e)

/-- Reads a configuration. -/
def Config.read (mode : BuildMode) (d : Document) : Reading Config := Config.readTo d.depth mode d

/-! ### Nodes and workflows -/

/-- The fields of a node. -/
def Node.readers : (Entity.layout Node).Readers
  | .id => Document.asInt32
  | .name => Document.asString
  | .kind => Document.asNodeKind
  | .bounds => Bounds.read
  | .inPorts | .outPorts => Port.reader
  | .modelSettings => Config.read

/-- Reads a node; one that cannot be read is a placeholder. -/
def Node.reader : ItemReader Node := ⟨Entity.read Node.readers, Entity.placeholder Node⟩

/-- The fields of a workflow. -/
def Workflow.readers : (Entity.layout Workflow).Readers
  | .name => Document.asString
  | .nodes => Node.reader
  | .connections => Connection.reader
  | .annotations => Annotation.reader

/-- Reads a workflow from the entries of a document's root. -/
def Workflow.read (mode : BuildMode) (entries : List (String × Document)) :
    Except BuildError Workflow :=
  Entity.readEntries Workflow.readers mode entries

end Flowsheet
