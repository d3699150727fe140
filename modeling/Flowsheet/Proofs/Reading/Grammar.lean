import Flowsheet.Document.Basic
import Flowsheet.Model.PortType
import Flowsheet.Proofs.Document

/-!
# The layout of documents

Which documents describe a workflow, said of the documents alone and without regard to how they are
read. Every entity is a mapping with the entries that its own structure lists (`NodeEntries` and so
on): an entry that `Needs` asks for has to be there, one that `Allows` speaks of may be absent or
null. Entries that no structure lists are of any kind. Configurations nest without bound, so
`IsConfig` is an inductive predicate.
-/

namespace Flowsheet.Document

/-! ### Single values -/

/-- A whole number of 32 bits with a sign. -/
def IsInt32 : Document → Prop
  | integer n => -2147483648 ≤ n.toInt ∧ n.toInt ≤ 2147483647
  | _ => False

/-- A whole number of 32 bits without a sign. -/
def IsUInt32 : Document → Prop
  | integer n => 0 ≤ n.toInt ∧ n.toInt ≤ 4294967295
  | _ => False

/-- A truth value. -/
def IsBool : Document → Prop
  | bool _ => True
  | _ => False

/-- A text. -/
def IsString : Document → Prop
  | string _ => True
  | _ => False

/-- A text whose segments between dots are made of the right characters and no reserved words. -/
def IsPortType : Document → Prop
  | string text => ∀ segment ∈ PortType.segments text,
    PortType.matchesPattern segment = true ∧ String.ofList segment ∉ PortType.reservedWords
  | _ => False

/-- The written form of a kind of node. -/
def IsNodeKind (d : Document) : Prop :=
  d = string "NATIVENODE" ∨ d = string "COMPONENT" ∨ d = string "METANODE"

/-- A value of a configuration. -/
def IsScalar : Document → Prop
  | bool _ | integer _ | float _ | string _ => True
  | null | sequence _ | mapping _ => False

/-! ### Entries and members -/

section

variable (P : Document → Prop)

/-- There is an entry with the name, and it is of a kind. -/
def Needs (name : String) (entries : List (String × Document)) : Prop :=
  ∃ d, Assoc.get? name entries = some d ∧ P d

/-- An entry with the name, if there is one, is null or of a kind. -/
def Allows (name : String) (entries : List (String × Document)) : Prop :=
  ∀ d, Assoc.get? name entries = some d → d = null ∨ P d

/-- A sequence whose items are of a kind. -/
def SequenceOf : Document → Prop
  | sequence items => ∀ d ∈ items, P d
  | _ => False

/-- A mapping whose values are of a kind. -/
def MappingOf : Document → Prop
  | mapping entries => ∀ e ∈ entries, P e.2
  | _ => False

end

/-- A mapping whose entries are as they should be. -/
def MappingWith (P : List (String × Document) → Prop) : Document → Prop
  | mapping entries => P entries
  | _ => False

/-! ### Entities -/

/-- A rectangle is four numbers. -/
structure BoundsEntries (entries : List (String × Document)) : Prop where
  x : Needs IsInt32 "x" entries
  y : Needs IsInt32 "y" entries
  width : Needs IsInt32 "width" entries
  height : Needs IsInt32 "height" entries

/-- A rectangle. -/
def IsBounds : Document → Prop := MappingWith BoundsEntries

/-- A port has an index and a type, and maybe a name. -/
structure PortEntries (entries : List (String × Document)) : Prop where
  index : Needs IsUInt32 "index" entries
  portType : Needs IsPortType "port_type" entries
  name : Allows IsString "name" entries

/-- A port. -/
def IsPort : Document → Prop := MappingWith PortEntries

/-- A point, as a sequence of two numbers or as a mapping with `x` and `y`. -/
def IsPoint : Document → Prop
  | sequence [x, y] => IsInt32 x ∧ IsInt32 y
  | mapping entries => Needs IsInt32 "x" entries ∧ Needs IsInt32 "y" entries
  | _ => False

/-- A connection has two ends, and maybe a mark and bend points. -/
structure ConnectionEntries (entries : List (String × Document)) : Prop where
  sourceId : Needs IsInt32 "source_id" entries
  sourcePort : Needs IsUInt32 "source_port" entries
  destId : Needs IsInt32 "dest_id" entries
  destPort : Needs IsUInt32 "dest_port" entries
  deletable : Allows IsBool "deletable" entries
  bendPoints : Allows (SequenceOf IsPoint) "bend_points" entries

/-- A connection. -/
def IsConnection : Document → Prop := MappingWith ConnectionEntries

/-- An annotation has a text and a rectangle, and maybe a border. -/
structure AnnotationEntries (entries : List (String × Document)) : Prop where
  text : Needs IsString "text" entries
  bounds : Needs IsBounds "bounds" entries
  borderSize : Allows IsInt32 "border_size" entries

/-- An annotation. -/
def IsAnnotation : Document → Prop := MappingWith AnnotationEntries

/-- A configuration has children, all of them configurations, or no such entry and a value. -/
inductive IsConfig : Document → Prop where
  /-- Configurations under keys. -/
  | children {entries children : List (String × Document)}
      (h : Assoc.get? "children" entries = some (mapping children))
      (hchildren : ∀ e ∈ children, IsConfig e.2) : IsConfig (mapping entries)
  /-- Children that are null. -/
  | noChildren {entries : List (String × Document)}
      (h : Assoc.get? "children" entries = some null) : IsConfig (mapping entries)
  /-- A single value. -/
  | value {entries : List (String × Document)} (h : Assoc.get? "children" entries = none)
      (hvalue : Needs IsScalar "value" entries) : IsConfig (mapping entries)

/-- A node has a number, a name and a kind, and maybe parts. -/
structure NodeEntries (entries : List (String × Document)) : Prop where
  id : Needs IsInt32 "id" entries
  name : Needs IsString "name" entries
  kind : Needs IsNodeKind "kind" entries
  bounds : Allows IsBounds "bounds" entries
  inPorts : Allows (SequenceOf IsPort) "in_ports" entries
  outPorts : Allows (SequenceOf IsPort) "out_ports" entries
  modelSettings : Allows IsConfig "model_settings" entries

/-- A node. -/
def IsNode : Document → Prop := MappingWith NodeEntries

/-- A workflow has maybe a name, nodes, connections and annotations. -/
structure WorkflowEntries (entries : List (String × Document)) : Prop where
  name : Allows IsString "name" entries
  nodes : Allows (MappingOf IsNode) "nodes" entries
  connections : Allows (SequenceOf IsConnection) "connections" entries
  annotations : Allows (SequenceOf IsAnnotation) "annotations" entries

/-- A workflow. -/
def IsWorkflow : Document → Prop := MappingWith WorkflowEntries

/-! ### Small laws -/

variable {P Q : Document → Prop}

/-- The items of a sequence can be described in two ways that agree on well-formed documents. -/
theorem sequenceOf_congr {d : Document} (hd : d.WellFormed)
    (h : ∀ x, x.WellFormed → (P x ↔ Q x)) : d.SequenceOf P ↔ d.SequenceOf Q := by
  cases d with
  | sequence items =>
      have hitems := wellFormed_sequence.mp hd
      exact forall₂_congr fun x hx => h x (hitems x hx)
  | null | bool _ | integer _ | float _ | string _ | mapping _ => exact Iff.rfl

/-- The values of a mapping can be described in two ways that agree on these values. -/
theorem mappingOf_congr {d : Document}
    (h : ∀ entries, d = mapping entries → ∀ e ∈ entries, (P e.2 ↔ Q e.2)) :
    d.MappingOf P ↔ d.MappingOf Q := by
  cases d with
  | mapping entries => exact forall₂_congr fun e he => h entries rfl e he
  | null | bool _ | integer _ | float _ | string _ | sequence _ => exact Iff.rfl

/-- The entries of a mapping can be described in two ways that agree on these entries. -/
theorem mappingWith_congr {P Q : List (String × Document) → Prop} {d : Document}
    (h : ∀ entries, d = mapping entries → (P entries ↔ Q entries)) :
    d.MappingWith P ↔ d.MappingWith Q := by
  cases d with
  | mapping entries => exact h entries rfl
  | null | bool _ | integer _ | float _ | string _ | sequence _ => exact Iff.rfl

/-- Which mappings are configurations. -/
theorem isConfig_mapping_iff {entries : List (String × Document)} :
    IsConfig (mapping entries) ↔
      match Assoc.get? "children" entries with
      | some d => d = null ∨ d.MappingOf IsConfig
      | none => Needs IsScalar "value" entries := by
  constructor
  · intro h
    cases h with
    | children h hchildren =>
        rw [h]
        exact Or.inr hchildren
    | noChildren h =>
        rw [h]
        exact Or.inl rfl
    | value h hvalue =>
        rw [h]
        exact hvalue
  · intro h
    cases hget : Assoc.get? "children" entries with
    | none =>
        rw [hget] at h
        exact .value hget h
    | some d =>
        rw [hget] at h
        rcases h with rfl | hmapping
        · exact .noChildren hget
        · cases d with
          | mapping children => exact .children hget hmapping
          | null | bool _ | integer _ | float _ | string _ | sequence _ => exact hmapping.elim

end Flowsheet.Document
