import Flowsheet.Model.Workflow

/-!
# Types of entities

The eight types of entities, the layout of each, and the types that the parts of each field may
have. A configuration is of one of two types, told apart by their fields.

`FaultPath.owner?` follows a path from a workflow and says which field of which type of entity its
last named field is.
-/

namespace Flowsheet

/-! ### Fields by name -/

/-- The field of a layout that has a name. -/
def Layout.field? (L : Layout) (name : String) : Option L.Field :=
  L.fields.find? fun f => L.name f = name

/-- A field that is found by a name has it. -/
theorem Layout.name_of_field? {L : Layout} {name : String} {f : L.Field}
    (h : L.field? name = some f) : L.name f = name := by
  unfold field? at h
  simpa using List.find?_some h

/-- Every field is found by its own name. -/
@[simp] theorem Layout.field?_name (L : Layout) (f : L.Field) : L.field? (L.name f) = some f := by
  obtain ⟨g, hg⟩ : ∃ g, L.field? (L.name f) = some g := by
    unfold field?
    rw [← Option.isSome_iff_exists, List.find?_isSome]
    exact ⟨f, L.mem_fields f, decide_eq_true rfl⟩
  rw [hg, L.name_injective g f (Layout.name_of_field? hg)]

/-! ### Types -/

/-- The types of entities. -/
inductive EntityType where
  | workflow | node | bounds | port | connection | annotation | configMap | configValue
  deriving DecidableEq, Repr

namespace EntityType

/-- The layout of entities of a type. -/
@[reducible] def layout : EntityType → Layout
  | workflow => Workflow.layout
  | node => Node.layout
  | bounds => Bounds.layout
  | port => Port.layout
  | connection => Connection.layout
  | annotation => Annotation.layout
  | configMap => ConfigMap.layout
  | configValue => ConfigValue.layout

/-- The types of the parts that a field holds. -/
def parts : (t : EntityType) → t.layout.Field → List EntityType
  | workflow, .nodes => [node]
  | workflow, .connections => [connection]
  | workflow, .annotations => [ annotation]
  | node, .bounds => [bounds]
  | node, .inPorts | node, .outPorts => [port]
  | node, .modelSettings => [configMap, configValue]
  | annotation, .bounds => [bounds]
  | configMap, .children => [configMap, configValue]
  | workflow, .name | node, .id | node, .name | node, .kind | annotation, .text
  | annotation, .borderSize | bounds, _ | port, _ | connection, _ | configValue, _ => []

/-- The field that has a name in the first of some types that has such a field. -/
def findField? (types : List EntityType) (name : String) :
    Option ((t : EntityType) × t.layout.Field) :=
  types.findSome? fun t => (t.layout.field? name).map fun f => ⟨t, f⟩

/-- A field that is found is one of the given types and has the name. -/
theorem findField?_eq_some {types : List EntityType} {name : String}
    {field : (t : EntityType) × t.layout.Field} (h : findField? types name = some field) :
    field.1 ∈ types ∧ field.1.layout.name field.2 = name := by
  obtain ⟨t, ht, hfield⟩ := List.exists_of_findSome?_eq_some h
  obtain ⟨f, hf, rfl⟩ := Option.map_eq_some_iff.mp hfield
  exact ⟨ht, Layout.name_of_field? hf⟩

/-- Follows a path through entities of some types; `last` is the field that was met last. -/
def ownerFrom (types : List EntityType) (last : Option ((t : EntityType) × t.layout.Field)) :
    FaultPath → Option ((t : EntityType) × t.layout.Field)
  | [] => last
  | .field name :: rest =>
    match findField? types name with
    | some field => ownerFrom (field.1.parts field.2) (some field) rest
    | none => none
  | .index _ :: rest | .key _ :: rest | .prior :: rest => ownerFrom types last rest

/-- Behind the name of a field the path goes on in the field's parts. -/
theorem ownerFrom_field {types : List EntityType} {name : String}
    {field : (t : EntityType) × t.layout.Field} (h : findField? types name = some field)
    (last : Option ((t : EntityType) × t.layout.Field)) (rest : FaultPath) :
    ownerFrom types last (.field name :: rest) =
      ownerFrom (field.1.parts field.2) (some field) rest := by
  rw [ownerFrom, h]

/-- A field that is met on the way counts, whatever was met before. -/
theorem ownerFrom_of_none {types : List EntityType} {path : FaultPath}
    {field : (t : EntityType) × t.layout.Field} (h : ownerFrom types none path = some field)
    (last : Option ((t : EntityType) × t.layout.Field)) :
    ownerFrom types last path = some field := by
  induction path generalizing types with
  | nil => cases h
  | cons key rest ih =>
      cases key with
      | field name =>
          rw [ownerFrom] at h ⊢
          exact h
      | index i => exact ih h
      | key k => exact ih h
      | prior => exact ih h

/-- The fields of a layout as fields of the first of some types that has a field of their names. -/
structure Owns (types : List EntityType) (L : Layout) where
  /-- The field of a type that a field of the layout is. -/
  field : L.Field → (t : EntityType) × t.layout.Field
  /-- Errors name the same entity. -/
  entity_eq : ∀ f, (field f).1.layout.entity = L.entity
  /-- Errors and paths name the same field. -/
  name_eq : ∀ f, (field f).1.layout.name (field f).2 = L.name f
  /-- It is found by its name. -/
  findField?_eq : ∀ f, findField? types (L.name f) = some (field f)

/-- A type owns the fields of its layout. -/
def owns (t : EntityType) : Owns [t] t.layout where
  field f := ⟨t, f⟩
  entity_eq _ := rfl
  name_eq _ := rfl
  findField?_eq f := by simp [findField?]

namespace Owns

/-- The fields of the maps among configurations. -/
def configMap : Owns [.configMap, .configValue] ConfigMap.layout where
  field f := ⟨.configMap, f⟩
  entity_eq _ := rfl
  name_eq _ := rfl
  findField?_eq f := by cases f; rfl

/-- The fields of the values among configurations. -/
def configValue : Owns [.configMap, .configValue] ConfigValue.layout where
  field f := ⟨.configValue, f⟩
  entity_eq _ := rfl
  name_eq _ := rfl
  findField?_eq f := by cases f; rfl

end Owns

end EntityType

/-! ### Paths -/

namespace FaultPath

/-- The last field that a path names. -/
def lastField? : FaultPath → Option String
  | [] => none
  | .field name :: rest => (lastField? rest).or (some name)
  | .index _ :: rest | .key _ :: rest | .prior :: rest => lastField? rest

/-- The last field that a path from a workflow names, with the type of entity that it belongs to. -/
def owner? (path : FaultPath) : Option ((t : EntityType) × t.layout.Field) :=
  EntityType.ownerFrom [.workflow] none path

end FaultPath

/-- The field that a path is followed to has the name that the path has last. -/
theorem EntityType.name_of_ownerFrom {types : List EntityType}
    {last : Option ((t : EntityType) × t.layout.Field)} {path : FaultPath}
    {field : (t : EntityType) × t.layout.Field} (h : ownerFrom types last path = some field) :
    (path.lastField?).or (last.map fun f => f.1.layout.name f.2) =
      some (field.1.layout.name field.2) := by
  induction path generalizing types last with
  | nil => rw [show last = some field from h]; rfl
  | cons key rest ih =>
      cases key with
      | field name =>
          rw [ownerFrom] at h
          split at h
          · rename_i found hfound
            rw [FaultPath.lastField?, ← ih h, Option.map_some, (findField?_eq_some hfound).2]
            cases FaultPath.lastField? rest <;> rfl
          · cases h
      | index i => exact ih h
      | key k => exact ih h
      | prior => exact ih h

/-- The owner's field is the one that the path names last. -/
theorem FaultPath.lastField?_of_owner? {path : FaultPath}
    {field : (t : EntityType) × t.layout.Field} (h : path.owner? = some field) :
    path.lastField? = some (field.1.layout.name field.2) := by
  simpa using EntityType.name_of_ownerFrom h

end Flowsheet
