import Flowsheet.Proofs.Schema

/-!
# Entities of any type

`AnyEntity` is an entity together with its type, and `EntityType.partView` says, for each field, as
which entity each part of the field counts. A part and the entity it counts as have the same faults
and receive further ones in the same way, and the entity's type is one of those that the schema
gives for the field (`partView_lawful`).
-/

namespace Flowsheet

/-- An entity of any type, field by field. -/
abbrev AnyEntity := (t : EntityType) × Record t.layout

namespace AnyEntity

/-- The faults of an entity and of everything below it. -/
def faults (x : AnyEntity) : FaultTree := x.2.faults

/-- The entity with other faults. -/
def withFaults (t : FaultTree) (x : AnyEntity) : AnyEntity := ⟨x.1, { x.2 with faults := t }⟩

/-- The entity with one more fault at the root of its tree. -/
def mark (fault : Fault) (x : AnyEntity) : AnyEntity := x.withFaults (x.faults.inject fault)

end AnyEntity

/-- A configuration as an entity of its kind. -/
def Config.view : Config → AnyEntity
  | .map children faults => ⟨.configMap, Entity.toRecord (⟨children, faults⟩ : ConfigMap)⟩
  | .value v faults => ⟨.configValue, Entity.toRecord (⟨v, faults⟩ : ConfigValue)⟩

/-- Values and the entities that they count as have the same faults, receive others in the same way,
and the entities are of the given types. -/
structure IsView {α : Type} [HasFaults α] (types : List EntityType) (view : α → AnyEntity) :
    Prop where
  /-- Faults show in the entity. -/
  faults_view : ∀ a, (view a).faults = HasFaults.faults a
  /-- Other faults are received in the same way. -/
  view_withFaults : ∀ t a, view (HasFaults.withFaults t a) = (view a).withFaults t
  /-- The entity is of one of the types. -/
  type_mem : ∀ a, (view a).1 ∈ types

/-- A part that is marked counts as the marked entity. -/
theorem IsView.view_mark {α : Type} [HasFaults α] {types : List EntityType} {view : α → AnyEntity}
    (h : IsView types view) (fault : Fault) (a : α) :
    view (HasFaults.mark fault a) = (view a).mark fault := by
  unfold HasFaults.mark
  rw [h.view_withFaults, AnyEntity.mark, h.faults_view]

namespace Shape

/-- As which entities the parts of a field count. -/
@[reducible] def PartView : Shape → Type
  | required _ | optional _ | list _ => Unit
  | @requiredPart α _ | @optionalPart α _ | @parts α _ | @namedParts α _ => α → AnyEntity

/-- The parts of a field count as entities of the given types. -/
def PartView.Lawful (types : List EntityType) : (s : Shape) → s.PartView → Prop
  | required _, _ | optional _, _ | list _, _ => True
  | @requiredPart _ _, view | @optionalPart _ _, view | @parts _ _, view | @namedParts _ _, view =>
    IsView types view

/-- The entities that stand in a field, in order. -/
def members : (s : Shape) → s.PartView → s.Content → List AnyEntity
  | required _, _, _ | optional _, _, _ | list _, _, _ => []
  | @requiredPart _ _, view, c | @optionalPart _ _, view, c => c.toList.map view
  | @parts _ _, view, c => c.map view
  | @namedParts _ _, view, c => c.map fun e => view e.2

end Shape

namespace EntityType

/-- As which entities the parts of each field count. -/
def partView : (t : EntityType) → (f : t.layout.Field) → (t.layout.shape f).PartView
  | workflow, .nodes => fun n => ⟨node, Entity.toRecord n⟩
  | workflow, .connections => fun c => ⟨connection, Entity.toRecord c⟩
  | workflow, .annotations => fun a => ⟨ annotation, Entity.toRecord a⟩
  | node, .bounds => fun b => ⟨bounds, Entity.toRecord b⟩
  | node, .inPorts => fun p => ⟨port, Entity.toRecord p⟩
  | node, .outPorts => fun p => ⟨port, Entity.toRecord p⟩
  | node, .modelSettings => Config.view
  | annotation, .bounds => fun b => ⟨bounds, Entity.toRecord b⟩
  | configMap, .children => Config.view
  | workflow, .name | node, .id | node, .name | node, .kind | annotation, .text
  | annotation, .borderSize | configValue, .value => ()
  | bounds, .x | bounds, .y | bounds, .width | bounds, .height => ()
  | port, .index | port, .portType | port, .name => ()
  | connection, .sourceId | connection, .sourcePort | connection, .destId | connection, .destPort
  | connection, .deletable | connection, .bendPoints => ()

/-- The parts of every field count as entities of the types that the schema gives for it. The two
kinds of configurations are told apart; all other parts are of the one type. -/
theorem partView_lawful (t : EntityType) (f : t.layout.Field) :
    Shape.PartView.Lawful (t.parts f) _ (t.partView f) := by
  have hconfig : IsView [configMap, configValue] Config.view := by
    constructor
    · intro c
      cases c <;> rfl
    · intro t c
      cases c <;> rfl
    · intro c
      cases c with
      | map children faults => exact List.mem_cons_self
      | value v faults => exact List.mem_cons_of_mem _ List.mem_cons_self
  cases t with
  | workflow =>
      cases f with
      | name => trivial
      | nodes | connections | annotations =>
          exact ⟨fun _ => rfl, fun _ _ => rfl, fun _ => List.mem_cons_self⟩
  | node =>
      cases f with
      | id | name | kind => trivial
      | bounds | inPorts | outPorts =>
          exact ⟨fun _ => rfl, fun _ _ => rfl, fun _ => List.mem_cons_self⟩
      | modelSettings => exact hconfig
  | annotation =>
      cases f with
      | text | borderSize => trivial
      | bounds => exact ⟨fun _ => rfl, fun _ _ => rfl, fun _ => List.mem_cons_self⟩
  | configMap =>
      cases f with
      | children => exact hconfig
  | bounds | port | connection | configValue => cases f <;> trivial

end EntityType

end Flowsheet
