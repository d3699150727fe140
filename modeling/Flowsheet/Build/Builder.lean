import Flowsheet.Build.Layout

/-!
# Building entities

A `Builder` holds one slot per field. `call` makes one setter call and is refused, with the builder
as it was, where a strict build meets a failed supply. `build` finishes: required fields without any
call are missing, and the fields' trees become the children of the entity's tree in the order of
the layout.

`run` makes calls until one is refused, `attempts` goes on after a refusal.
-/

namespace Flowsheet

/-- A record while it is being built. -/
structure Builder (L : Layout) where
  /-- What happens to a field that cannot be supplied. -/
  mode : BuildMode
  /-- What is known of each field. -/
  slot : (f : L.Field) → (L.shape f).Slot

/-- One setter call. -/
structure Builder.Call (L : Layout) where
  /-- The field that is set. -/
  field : L.Field
  /-- How it is set. -/
  setter : (L.shape field).Call

namespace Builder

variable {L : Layout}

/-- A builder without any call. -/
def new (L : Layout) (mode : BuildMode) : Builder L := ⟨mode, fun f => (L.shape f).unset⟩

/-- A tolerant builder whose fields, with their faults, are those of a finished record. -/
def ofRecord (r : Record L) : Builder L :=
  ⟨.tolerant, fun f => (L.shape f).copied (r.get f) (r.faults.subtree (L.name f))⟩

/-- What failures in this builder are reported as. -/
def scope (b : Builder L) : Scope := ⟨L.entity, b.mode⟩

/-- The builder with another slot at one field. -/
def setSlot (b : Builder L) (f : L.Field) (s : (L.shape f).Slot) : Builder L where
  mode := b.mode
  slot g := if h : g = f then h ▸ s else b.slot g

/-- Makes a setter call. -/
def call (b : Builder L) (c : Call L) : Except BuildError (Builder L) :=
  ((L.shape c.field).apply b.scope (L.key c.field) c.setter (b.slot c.field)).map
    (b.setSlot c.field)

/-- Records a required field without any call as missing. -/
def require (b : Builder L) (f : L.Field) : Except BuildError (Builder L) :=
  ((L.shape f).require b.scope (L.key f) (b.slot f)).map (b.setSlot f)

/-- The record that the slots make up. -/
def toRecord (b : Builder L) : Record L where
  get f := (L.shape f).content (b.slot f)
  faults := FaultTree.merge none (L.fields.map fun f => (L.key f, (L.shape f).faults (b.slot f)))

/-- Finishes a build. -/
def build (b : Builder L) : Except BuildError (Record L) :=
  (L.fields.foldlM require b).map toRecord

/-- Makes calls up to the first that is refused. -/
def run (b : Builder L) (calls : List (Call L)) : Except BuildError (Builder L) :=
  calls.foldlM call b

/-- Makes one call and stays as it is if the call is refused. -/
def attempt (b : Builder L) (c : Call L) : Builder L :=
  match b.call c with
  | .ok next => next
  | .error _ => b

/-- Makes all calls that are not refused. -/
def attempts (b : Builder L) (calls : List (Call L)) : Builder L := calls.foldl attempt b

/-- Finishes the build of an entity. -/
def finish {E : Type} [Entity E] (b : Builder (Entity.layout E)) : Except BuildError E :=
  b.build.map Entity.ofRecord

/-! ### Slots after a change -/

@[simp] theorem slot_setSlot (b : Builder L) (f : L.Field) (s : (L.shape f).Slot) :
    (b.setSlot f s).slot f = s := by
  simp [setSlot]

theorem slot_setSlot_of_ne (b : Builder L) {f g : L.Field} (s : (L.shape f).Slot) (h : g ≠ f) :
    (b.setSlot f s).slot g = b.slot g := by
  simp [setSlot, h]

@[simp] theorem mode_setSlot (b : Builder L) (f : L.Field) (s : (L.shape f).Slot) :
    (b.setSlot f s).mode = b.mode := rfl

end Builder

end Flowsheet
