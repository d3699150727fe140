import Flowsheet.Build.ListSlot
import Flowsheet.Build.MapSlot

/-!
# What entities consist of

A `Layout` describes one type of entity: its name, its fields in order, and for each field a
`Shape`. The shape fixes what a finished entity holds there (`Content`), what a builder holds there
(`Slot`), which setter calls there are (`Call`), what they do (`apply`), and what a finished entity
takes over (`content`, `faults`). A `Record` of a layout is an entity seen field by field.

An `Entity` type is one whose values are the records of a layout.
-/

namespace Flowsheet

/-! ### Shapes -/

/-- What a field holds. Parts are values with faults of their own. -/
inductive Shape : Type 1 where
  /-- A plain value that has to be there. -/
  | required (α : Type)
  /-- A plain value that may be absent. -/
  | optional (α : Type)
  /-- A part that has to be there. -/
  | requiredPart (α : Type) [HasFaults α]
  /-- A part that may be absent. -/
  | optionalPart (α : Type) [HasFaults α]
  /-- A list of plain values. -/
  | list (α : Type)
  /-- A list of parts. -/
  | parts (α : Type) [HasFaults α]
  /-- Parts under the caller's keys. -/
  | namedParts (α : Type) [HasFaults α]

namespace Shape

/-- What a finished entity holds in such a field. -/
@[reducible] def Content : Shape → Type
  | required α | optional α | @requiredPart α _ | @optionalPart α _ => Option α
  | list α | @parts α _ => List α
  | @namedParts α _ => List (String × α)

/-- What a builder holds in such a field. -/
@[reducible] def Slot : Shape → Type
  | required α | optional α | @requiredPart α _ | @optionalPart α _ => Flowsheet.Slot α
  | list α | @parts α _ => ListSlot α
  | @namedParts α _ => MapSlot α

/-- The setter calls of such a field. -/
@[reducible] def Call : Shape → Type
  | required α | @requiredPart α _ => SlotCall α α
  | optional α | @optionalPart α _ => SlotCall (Option α) α
  | list α | @parts α _ => ListCall α
  | @namedParts α _ => MapCall α

/-- Whether a finished entity without such a field has a fault. -/
def isRequired : Shape → Bool
  | required _ | @requiredPart _ _ => true
  | optional _ | @optionalPart _ _ | list _ | @parts _ _ | @namedParts _ _ => false

/-- The content of a field about which nothing is known. -/
def blank : (s : Shape) → s.Content
  | required _ | optional _ | @requiredPart _ _ | @optionalPart _ _ => none
  | list _ | @parts _ _ | @namedParts _ _ => []

/-- A field without any call. -/
def unset : (s : Shape) → s.Slot
  | required _ | optional _ | @requiredPart _ _ | @optionalPart _ _ => .unset
  | list _ | @parts _ _ => .unset
  | @namedParts _ _ => .unset

/-- A field taken over from a finished entity, with the faults it has there. -/
def copied : (s : Shape) → s.Content → FaultTree → s.Slot
  | required _, c, t | optional _, c, t | @requiredPart _ _, c, t | @optionalPart _ _, c, t =>
    .copied c t
  | list _, c, t | @parts _ _, c, t => .copied c t
  | @namedParts _ _, c, t => .copied c t

/-- What a setter call does to a field. -/
def apply (scope : Scope) (key : FaultKey) :
    (s : Shape) → s.Call → s.Slot → Except BuildError s.Slot
  | required _, .set v, _ | optional _, .set v, _ => .ok (.assigned (some v))
  | required _, .supply given fallback, _ =>
    Flowsheet.Slot.supplied scope key (given.map some) fallback
  | optional _, .supply given fallback, _ => Flowsheet.Slot.supplied scope key given fallback
  | @requiredPart _ _, .set v, _ | @optionalPart _ _, .set v, _ => .ok (.assignedPart (some v))
  | @requiredPart _ _, .supply given fallback, _ =>
    Flowsheet.Slot.suppliedPart scope key (given.map some) fallback
  | @optionalPart _ _, .supply given fallback, _ =>
    Flowsheet.Slot.suppliedPart scope key given fallback
  | list _, .setAll vs, slot | @parts _ _, .setAll vs, slot => .ok (slot.assignAll vs)
  | list _, .supplyAll given fallback, slot | @parts _ _, .supplyAll given fallback, slot =>
    slot.supplyAll scope key given fallback
  | list _, .add v, slot | @parts _ _, .add v, slot => .ok (slot.push v)
  | list _, .supplyOne given fallback, slot => slot.supplyElement scope key given fallback
  | @parts _ _, .supplyOne given fallback, slot => slot.supplyPart scope key given fallback
  | @namedParts _ _, .setAll es, slot => .ok (slot.assignAll es)
  | @namedParts _ _, .supplyAll given fallback, slot => slot.supplyAll scope key given fallback
  | @namedParts _ _, .put k v, slot => .ok (slot.insert k v)
  | @namedParts _ _, .supplyOne k given fallback, slot =>
    slot.supplyPart scope key k given fallback

/-- The field at the end of a build: a required one without any call is missing. -/
def require (scope : Scope) (key : FaultKey) : (s : Shape) → s.Slot → Except BuildError s.Slot
  | required _, slot | @requiredPart _ _, slot => slot.require scope key
  | optional _, slot | @optionalPart _ _, slot => .ok slot
  | list _, slot | @parts _ _, slot => .ok slot
  | @namedParts _ _, slot => .ok slot

/-- What a finished entity takes over from a field. -/
def content : (s : Shape) → s.Slot → s.Content
  | required _, slot | optional _, slot | @requiredPart _ _, slot | @optionalPart _ _, slot =>
    slot.value
  | list _, slot | @parts _ _, slot => slot.values
  | @namedParts _ _, slot => slot.entries

/-- The tree that a finished entity takes over from a field. -/
def faults : (s : Shape) → s.Slot → FaultTree
  | required _, slot | optional _, slot | @requiredPart _ _, slot | @optionalPart _ _, slot =>
    slot.faults
  | list _, slot => slot.faults
  | @parts _ _, slot => slot.partFaults
  | @namedParts _ _, slot => slot.partFaults

end Shape

/-! ### Layouts and records -/

/-- One type of entity. -/
structure Layout where
  /-- The entity's name in error texts. -/
  entity : String
  /-- The names of its fields, as an enumeration. -/
  Field : Type
  /-- Fields can be told apart. -/
  [decEqField : DecidableEq Field]
  /-- The fields in order. -/
  fields : List Field
  /-- Every field is in that list. -/
  mem_fields : ∀ f, f ∈ fields
  /-- No field is in it twice. -/
  nodup_fields : fields.Nodup
  /-- The name of a field in documents and paths. -/
  name : Field → String
  /-- Different fields have different names. -/
  name_injective : ∀ f g, name f = name g → f = g
  /-- What a field holds. -/
  shape : Field → Shape

attribute [instance] Layout.decEqField

namespace Layout

/-- The key of a field in fault trees. -/
def key (L : Layout) (f : L.Field) : FaultKey := .field (L.name f)

/-- The names of the required fields in order. -/
def requiredNames (L : Layout) : List String :=
  (L.fields.filter fun f => (L.shape f).isRequired).map L.name

end Layout

/-- An entity seen field by field. -/
structure Record (L : Layout) where
  /-- The content of each field. -/
  get : (f : L.Field) → (L.shape f).Content
  /-- The faults of the entity and of everything below it. -/
  faults : FaultTree

/-- The record about which nothing is known: every required field is missing. -/
def Record.placeholder (L : Layout) : Record L where
  get f := (L.shape f).blank
  faults := FaultTree.missing L.requiredNames

/-! ### Entities -/

/-- Types whose values are the records of a layout. -/
class Entity (E : Type) where
  /-- The layout. -/
  layout : Layout
  /-- The entity field by field. -/
  toRecord : E → Record layout
  /-- The entity with such fields. -/
  ofRecord : Record layout → E
  /-- Nothing is lost on the way to a record. -/
  ofRecord_toRecord : ∀ e, ofRecord (toRecord e) = e
  /-- Nothing is lost on the way from a record. -/
  toRecord_ofRecord : ∀ r, toRecord (ofRecord r) = r

namespace Entity

variable {E : Type} [Entity E]

/-- The faults of an entity are those of its record. -/
instance : HasFaults E where
  faults e := (toRecord e).faults
  withFaults t e := ofRecord { toRecord e with faults := t }
  faults_withFaults _ _ := by rw [toRecord_ofRecord]

/-- The entity about which nothing is known. -/
def placeholder (E : Type) [Entity E] : E := ofRecord (Record.placeholder (layout E))

/-- The tree of one field. -/
def faultsOf? (e : E) (f : (layout E).Field) : Option FaultTree :=
  (HasFaults.faults e).field? ((layout E).name f)

/-- The fault that made a field fall back. -/
def supplyFault? (e : E) (f : (layout E).Field) : Option Fault :=
  (faultsOf? e f).bind FaultTree.fault?

end Entity

end Flowsheet
