import Flowsheet.Document.Basic
import Flowsheet.Proofs.Assoc
import Flowsheet.Proofs.Views

/-!
# Writing workflows

The document of a workflow (`Workflow.toDocument`). An entity is a mapping with an entry for each
field that holds anything, in the order of the fields: lists are sequences, maps are mappings with
the same keys in the same order, and what is absent is left out.

For proofs the same is said of an entity of any type at once: `EntityType.writers` is how the fields
of a type are written, and `AnyEntity.entries` are the entries of an entity.
`EntityType.writesParts` says that the parts of every field are written as the entities that they
count as.
-/

namespace Flowsheet

/-! ### Single values -/

namespace Document

/-- A whole number of 32 bits. -/
def ofInt32 (n : Int32) : Document := .integer n.toInt64

/-- A whole number of 32 bits without a sign. -/
def ofUInt32 (n : UInt32) : Document := .integer (Int64.ofNat n.toNat)

/-- A kind of node, by its text. -/
def ofNodeKind (k : NodeKind) : Document := .string k.text

/-- A port type, by its text. -/
def ofPortType (p : PortType) : Document := .string p.text

/-- A point, as a pair. -/
def ofCoordinate (c : Coordinate) : Document := .sequence [ofInt32 c.x, ofInt32 c.y]

/-- A value of a configuration. -/
def ofScalar : Scalar → Document
  | .bool value => .bool value
  | .int value => .integer value
  | .double value => .float value
  | .string value => .string value

/-- The entries of the fields that hold something. -/
def given (fields : List (String × Option Document)) : List (String × Document) :=
  fields.filterMap fun e => e.2.map fun d => (e.1, d)

/-- The entries are the fields that hold something. -/
theorem mem_given {fields : List (String × Option Document)} {e : String × Document} :
    e ∈ given fields ↔ (e.1, some e.2) ∈ fields := by
  unfold given
  rw [List.mem_filterMap]
  constructor
  · rintro ⟨⟨name, content⟩, hmem, he⟩
    obtain ⟨d, rfl, rfl⟩ := Option.map_eq_some_iff.mp he
    exact hmem
  · intro hmem
    exact ⟨_, hmem, rfl⟩

/-- The entries come in the order of the fields. -/
theorem keys_given_sublist (fields : List (String × Option Document)) :
    (Assoc.keys (given fields)).Sublist (Assoc.keys fields) := by
  induction fields with
  | nil => exact List.Sublist.slnil
  | cons e rest ih =>
      obtain ⟨name, content⟩ := e
      cases content with
      | none => exact ih.cons name
      | some d => exact ih.cons_cons name

end Document

/-! ### Workflows -/

open Document

/-- A rectangle as a mapping. -/
def Bounds.toDocument (b : Bounds) : Document :=
  .mapping (given
    [("x", b.x.map ofInt32), ("y", b.y.map ofInt32), ("width", b.width.map ofInt32),
      ("height", b.height.map ofInt32)])

/-- A port as a mapping. -/
def Port.toDocument (p : Port) : Document :=
  .mapping (given
    [("index", p.index.map ofUInt32), ("port_type", p.portType.map ofPortType),
      ("name", p.name.map .string)])

/-- A connection as a mapping. -/
def Connection.toDocument (c : Connection) : Document :=
  .mapping (given
    [("source_id", c.sourceId.map ofInt32), ("source_port", c.sourcePort.map ofUInt32),
      ("dest_id", c.destId.map ofInt32), ("dest_port", c.destPort.map ofUInt32),
      ("deletable", c.deletable.map .bool),
      ("bend_points", some (.sequence (c.bendPoints.map ofCoordinate)))])

/-- An annotation as a mapping. -/
def Annotation.toDocument (a : Annotation) : Document :=
  .mapping (given
    [("text", a.text.map .string), ("bounds", a.bounds.map Bounds.toDocument),
      ("border_size", a.borderSize.map ofInt32)])

namespace Config

mutual

/-- A configuration as a mapping, with the children of a map or with a value. -/
def toDocument : Config → Document
  | map children _ => .mapping [("children", .mapping (childDocuments children))]
  | value v _ => .mapping (given [("value", v.map ofScalar)])

/-- The children of a map. -/
def childDocuments : List (String × Config) → List (String × Document)
  | [] => []
  | (key, c) :: rest => (key, toDocument c) :: childDocuments rest

end

/-- The children of a map are written one by one under their keys. -/
theorem childDocuments_eq (children : List (String × Config)) :
    childDocuments children = children.map fun e => (e.1, e.2.toDocument) := by
  induction children with
  | nil => rfl
  | cons e rest ih => rw [childDocuments, ih, List.map_cons]

end Config

/-- A node as a mapping. -/
def Node.toDocument (n : Node) : Document :=
  .mapping (given
    [("id", n.id.map ofInt32), ("name", n.name.map .string), ("kind", n.kind.map ofNodeKind),
      ("bounds", n.bounds.map Bounds.toDocument),
      ("in_ports", some (.sequence (n.inPorts.map Port.toDocument))),
      ("out_ports", some (.sequence (n.outPorts.map Port.toDocument))),
      ("model_settings", n.modelSettings.map Config.toDocument)])

/-- The document of a workflow. -/
def Workflow.toDocument (w : Workflow) : Document :=
  .mapping (given
    [("name", w.name.map .string),
      ("nodes", some (.mapping (w.nodes.map fun e => (e.1, e.2.toDocument)))),
      ("connections", some (.sequence (w.connections.map Connection.toDocument))),
      ("annotations", some (.sequence (w.annotations.map Annotation.toDocument)))])

/-! ### Fields and records -/

namespace Shape

/-- How what stands in a field is written. -/
@[reducible] def Writer : Shape → Type
  | required α | optional α | @requiredPart α _ | @optionalPart α _ | list α | @parts α _
  | @namedParts α _ => α → Document

/-- What a field is written as, unless it holds nothing. -/
def write : (s : Shape) → s.Writer → s.Content → Option Document
  | required _, writer, c | optional _, writer, c | @requiredPart _ _, writer, c
  | @optionalPart _ _, writer, c => c.map writer
  | list _, writer, c | @parts _ _, writer, c => some (.sequence (c.map writer))
  | @namedParts _ _, writer, c => some (.mapping (c.map fun e => (e.1, writer e.2)))

end Shape

/-- How each field of a layout is written. -/
abbrev Layout.Writers (L : Layout) := (f : L.Field) → (L.shape f).Writer

/-- The entries of a record's fields. -/
def Record.entries {L : Layout} (writers : L.Writers) (r : Record L) : List (String × Document) :=
  given (L.fields.map fun f => (L.name f, (L.shape f).write (writers f) (r.get f)))

namespace Record

variable {L : Layout} {writers : L.Writers} {r : Record L}

/-- An entry of the document is a field that holds something, under the field's name. -/
theorem mem_entries {e : String × Document} :
    e ∈ r.entries writers ↔
      ∃ f, L.name f = e.1 ∧ (L.shape f).write (writers f) (r.get f) = some e.2 := by
  unfold entries
  rw [mem_given, List.mem_map]
  constructor
  · rintro ⟨f, -, hf⟩
    obtain ⟨hname, hd⟩ := Prod.mk.inj hf
    exact ⟨f, hname, hd⟩
  · rintro ⟨f, hname, hd⟩
    exact ⟨f, L.mem_fields f, Prod.ext hname hd⟩

/-- No field is written twice. -/
theorem nodup_keys_entries : (Assoc.keys (r.entries writers)).Nodup := by
  refine List.Nodup.sublist (keys_given_sublist _) ?_
  unfold Assoc.keys
  rw [List.map_map]
  exact List.Pairwise.map _ (fun f g hne heq => hne (L.name_injective f g heq)) L.nodup_fields

/-- The entry under the name of a field is that of the field. -/
theorem get?_entries (f : L.Field) :
    Assoc.get? (L.name f) (r.entries writers) = (L.shape f).write (writers f) (r.get f) := by
  refine Option.ext fun d => ?_
  rw [Assoc.get?_eq_some_iff nodup_keys_entries, mem_entries]
  constructor
  · rintro ⟨g, hname, hd⟩
    obtain rfl := L.name_injective g f hname
    exact hd
  · intro hd
    exact ⟨f, rfl, hd⟩

end Record

/-! ### Entities of any type -/

/-- How the fields of entities of a type are written. -/
def EntityType.writers : (t : EntityType) → t.layout.Writers
  | workflow, .name => Document.string
  | workflow, .nodes => Node.toDocument
  | workflow, .connections => Connection.toDocument
  | workflow, .annotations => Annotation.toDocument
  | node, .id => ofInt32
  | node, .name => Document.string
  | node, .kind => ofNodeKind
  | node, .bounds => Bounds.toDocument
  | node, .inPorts | node, .outPorts => Port.toDocument
  | node, .modelSettings => Config.toDocument
  | bounds, .x | bounds, .y | bounds, .width | bounds, .height => ofInt32
  | port, .index => ofUInt32
  | port, .portType => ofPortType
  | port, .name => Document.string
  | connection, .sourceId | connection, .destId => ofInt32
  | connection, .sourcePort | connection, .destPort => ofUInt32
  | connection, .deletable => Document.bool
  | connection, .bendPoints => ofCoordinate
  | annotation, .text => Document.string
  | annotation, .bounds => Bounds.toDocument
  | annotation, .borderSize => ofInt32
  | configMap, .children => Config.toDocument
  | configValue, .value => ofScalar

/-- The entries of an entity of any type. -/
def AnyEntity.entries (x : AnyEntity) : List (String × Document) := x.2.entries x.1.writers

/-- A workflow is written field by field as well. -/
theorem Workflow.toDocument_eq (w : Workflow) :
    w.toDocument = .mapping (AnyEntity.entries ⟨.workflow, Entity.toRecord w⟩) := rfl

/-- Parts are written as the entities that they count as, and are told apart by them. -/
structure IsPartWriter {α : Type} (view : α → AnyEntity) (write : α → Document) : Prop where
  /-- A part is the mapping of its entity. -/
  write_eq : ∀ a, write a = .mapping (view a).entries
  /-- Nothing is lost on the way to the entity. -/
  view_injective : ∀ a b, view a = view b → a = b

/-- The parts of a field are written so. -/
def Shape.WritesParts : (s : Shape) → s.PartView → s.Writer → Prop
  | required _, _, _ | optional _, _, _ | list _, _, _ => True
  | @requiredPart _ _, view, writer | @optionalPart _ _, view, writer
  | @parts _ _, view, writer | @namedParts _ _, view, writer => IsPartWriter view writer

/-- Entities that agree in all fields and in their trees are the same. -/
theorem Entity.toRecord_injective {E : Type} [Entity E] :
    Function.Injective (toRecord : E → Record (layout E)) :=
  Function.LeftInverse.injective ofRecord_toRecord

/-- Parts that count as entities of one type are written as such. -/
theorem isPartWriter_of_injective {α : Type} (t : EntityType) {record : α → Record t.layout}
    (hrecord : Function.Injective record) {write : α → Document}
    (hwrite : ∀ a, write a = .mapping ((record a).entries t.writers)) :
    IsPartWriter (fun a => ⟨t, record a⟩) write := by
  constructor
  · exact hwrite
  · intro a b hab
    exact hrecord (eq_of_heq (Sigma.mk.inj hab).2)

/-- A configuration is written as the entity of its kind. -/
theorem Config.isPartWriter : IsPartWriter Config.view Config.toDocument := by
  constructor
  · intro c
    cases c with
    | map children faults =>
        rw [toDocument, childDocuments_eq]
        rfl
    | value v faults => rfl
  · intro a b hab
    cases a with
    | map children faults =>
        cases b with
        | map children' faults' =>
            have hmap : (⟨children, faults⟩ : ConfigMap) = ⟨children', faults'⟩ :=
              Entity.toRecord_injective (eq_of_heq (Sigma.mk.inj hab).2)
            exact congrArg ConfigMap.toConfig hmap
        | value v' faults' => cases (Sigma.mk.inj hab).1
    | value v faults =>
        cases b with
        | map children' faults' => cases (Sigma.mk.inj hab).1
        | value v' faults' =>
            have hvalue : (⟨v, faults⟩ : ConfigValue) = ⟨v', faults'⟩ :=
              Entity.toRecord_injective (eq_of_heq (Sigma.mk.inj hab).2)
            exact congrArg ConfigValue.toConfig hvalue

/-- What stands in a field of any type is written as the schema says. -/
theorem EntityType.writesParts (t : EntityType) (f : t.layout.Field) :
    (t.layout.shape f).WritesParts (t.partView f) (t.writers f) := by
  have hbounds : IsPartWriter (fun b => ⟨bounds, Entity.toRecord b⟩) Bounds.toDocument :=
    isPartWriter_of_injective bounds (Entity.toRecord_injective (E := Bounds)) fun _ => rfl
  have hport : IsPartWriter (fun p => ⟨port, Entity.toRecord p⟩) Port.toDocument :=
    isPartWriter_of_injective port (Entity.toRecord_injective (E := Port)) fun _ => rfl
  cases t with
  | workflow =>
      cases f with
      | name => trivial
      | nodes =>
          exact isPartWriter_of_injective node (Entity.toRecord_injective (E := Node)) fun _ => rfl
      | connections =>
          exact isPartWriter_of_injective connection
            (Entity.toRecord_injective (E := Connection)) fun _ => rfl
      | annotations =>
          exact isPartWriter_of_injective EntityType.annotation
            (Entity.toRecord_injective (E := Annotation)) fun _ => rfl
  | node =>
      cases f with
      | id | name | kind => trivial
      | bounds => exact hbounds
      | inPorts | outPorts => exact hport
      | modelSettings => exact Config.isPartWriter
  | annotation =>
      cases f with
      | text | borderSize => trivial
      | bounds => exact hbounds
  | configMap =>
      cases f with
      | children => exact Config.isPartWriter
  | connection => cases f <;> trivial
  | bounds | port | configValue => cases f <;> trivial

end Flowsheet
