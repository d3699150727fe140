import Flowsheet.Build.Builder

/-!
# Builders that are overwritten in place

`Builder.call` makes another builder or gives an error and no builder at all. Here the same calls
are made on a `Workbench`, which they overwrite piece by piece: each assignment is an update of its
own, and what was written before an error stays written for whoever goes on after it.

A list keeps the faults of its single elements apart from the elements (`ListStore`). Everything
else is stored as the slots hold it.
-/

namespace Flowsheet

/-! ### Updates -/

/-- A change of storage in steps that may end early; what was written until then stays. -/
abbrev Update (σ α : Type) := EStateM BuildError σ α

namespace Update

variable {σ : Type}

/-- The error with which an update ends, if it does not come through. -/
def error? (u : Update σ Unit) (s : σ) : Option BuildError :=
  match u.run s with
  | .ok _ _ => none
  | .error e _ => some e

/-- The storage as an update leaves it, whether it comes through or not. -/
def after (u : Update σ Unit) (s : σ) : σ :=
  match u.run s with
  | .ok _ next => next
  | .error _ next => next

/-- What an update comes to for those who do not go on after an error. -/
def outcome (u : Update σ Unit) (s : σ) : Except BuildError σ :=
  match u.run s with
  | .ok _ next => .ok next
  | .error e _ => .error e

end Update

/-! ### Fields with at most one value -/

namespace Slot.InPlace

variable {α : Type}

/-- A value that is simply given. -/
def assignOptional (value : Option α) : Update (Slot α) Unit := do
  modify fun slot => { slot with value := value }
  modify fun slot => { slot with faults := .empty }
  modify fun slot => { slot with state := .supplied }

/-- A supply, in which `none` is a legitimate absent value. -/
def supplyOptional (scope : Scope) (key : FaultKey) (given : Except Cause (Option α))
    (fallback : Option α) : Update (Slot α) Unit :=
  match given with
  | .ok value => assignOptional value
  | .error cause => do
    let fault ← ofExcept (scope.fail key cause)
    modify fun slot => { slot with value := fallback }
    modify fun slot => { slot with faults := .leaf fault }
    modify fun slot => { slot with state := .faulted }

/-- A supply of a value. -/
def supply (scope : Scope) (key : FaultKey) (given : Except Cause α) (fallback : Option α) :
    Update (Slot α) Unit :=
  supplyOptional scope key (given.map some) fallback

/-- A required field that had no call is supplied with its own absence. -/
def require (scope : Scope) (key : FaultKey) : Update (Slot α) Unit := do
  let slot ← get
  match slot.state with
  | .unset => supply scope key (.error (.field (.missing key.text))) none
  | .supplied | .faulted => pure ()

variable [HasFaults α]

/-- A part that is simply given. -/
def assignOptionalPart (part : Option α) : Update (Slot α) Unit := do
  modify fun slot => { slot with faults := (part.map HasFaults.faults).getD .empty }
  modify fun slot => { slot with value := part }
  modify fun slot => { slot with state := .supplied }

/-- What is stored of a fallback part and of the fault that made it necessary. -/
def fallBackPart (fallback : Option α) (fault : Fault) : Update (Slot α) Unit :=
  match fallback with
  | some part => do
    let marked := HasFaults.mark fault part
    modify fun slot => { slot with faults := HasFaults.faults marked }
    modify fun slot => { slot with value := some marked }
  | none => do
    modify fun slot => { slot with faults := FaultTree.empty.inject fault }
    modify fun slot => { slot with value := none }

/-- A supply of a part, in which `none` is a legitimate absent part. -/
def supplyOptionalPart (scope : Scope) (key : FaultKey) (given : Except Cause (Option α))
    (fallback : Option α) : Update (Slot α) Unit :=
  match given with
  | .ok part => assignOptionalPart part
  | .error cause => do
    let fault ← ofExcept (scope.fail key cause)
    fallBackPart fallback fault
    modify fun slot => { slot with state := .faulted }

/-- A supply of a part. -/
def supplyPart (scope : Scope) (key : FaultKey) (given : Except Cause α) (fallback : Option α) :
    Update (Slot α) Unit :=
  supplyOptionalPart scope key (given.map some) fallback

end Slot.InPlace

/-! ### Lists -/

/-- A list field in storage. -/
structure ListStore (α : Type) where
  /-- The list that was given as a whole. -/
  bulk : List α
  /-- The faults that came with it. -/
  bulkFaults : FaultTree
  /-- The elements that were given one by one. -/
  added : List α
  /-- The faults of those among them that fell back, by place in `added`. -/
  addedFaults : List (Nat × FaultTree)

namespace ListStore

variable {α : Type}

/-- The whole list is given. -/
def assignAll (values : List α) : Update (ListStore α) Unit := do
  modify fun store => { store with bulk := values }
  modify fun store => { store with bulkFaults := .empty }

/-- The whole list is supplied. -/
def supplyAll (scope : Scope) (key : FaultKey) (given : Except Cause (List α))
    (fallback : List α) : Update (ListStore α) Unit :=
  match given with
  | .ok values => assignAll values
  | .error cause => do
    let fault ← ofExcept (scope.fail key cause)
    modify fun store => { store with bulk := fallback }
    modify fun store => { store with bulkFaults := FaultTree.empty.inject fault }

/-- One element is given. -/
def push (value : α) : Update (ListStore α) Unit :=
  modify fun store => { store with added := store.added ++ [value] }

/-- One element is supplied. -/
def supplyElement (scope : Scope) (key : FaultKey) (given : Except Cause α) (fallback : α) :
    Update (ListStore α) Unit :=
  match given with
  | .ok value => push value
  | .error cause => do
    let fault ← ofExcept (scope.fail key cause)
    modify fun store =>
      { store with addedFaults := store.addedFaults ++ [(store.added.length, .leaf fault)] }
    modify fun store => { store with added := store.added ++ [fallback] }

/-- One part is supplied. -/
def supplyPart [HasFaults α] (scope : Scope) (key : FaultKey) (given : Except Cause α)
    (fallback : α) : Update (ListStore α) Unit :=
  match given with
  | .ok part => push part
  | .error cause => do
    let fault ← ofExcept (scope.fail key cause)
    modify fun store => { store with added := store.added ++ [HasFaults.mark fault fallback] }

/-- All elements in their final order. -/
def values (store : ListStore α) : List α := store.bulk ++ store.added

/-- The tree of a list of plain values. -/
def faults (store : ListStore α) : FaultTree :=
  FaultTree.merge store.bulkFaults.fault? (store.bulkFaults.children ++
    store.addedFaults.map fun e => (.index (store.bulk.length + e.1), e.2))

/-- The tree of a list of parts. -/
def partFaults [HasFaults α] (store : ListStore α) : FaultTree :=
  FaultTree.merge store.bulkFaults.fault? (ListSlot.partFaultsFrom 0 store.values)

end ListStore

/-! ### Maps -/

namespace MapSlot.InPlace

variable {α : Type}

/-- The whole map is given. -/
def assignAll (entries : List (String × α)) : Update (MapSlot α) Unit := do
  modify fun slot => { slot with bulk := entries }
  modify fun slot => { slot with bulkFaults := .empty }

/-- The whole map is supplied. -/
def supplyAll (scope : Scope) (key : FaultKey) (given : Except Cause (List (String × α)))
    (fallback : List (String × α)) : Update (MapSlot α) Unit :=
  match given with
  | .ok entries => assignAll entries
  | .error cause => do
    let fault ← ofExcept (scope.fail key cause)
    modify fun slot => { slot with bulk := fallback }
    modify fun slot => { slot with bulkFaults := FaultTree.empty.inject fault }

/-- One entry is put. -/
def insert (entry : String) (value : α) : Update (MapSlot α) Unit := do
  modify fun slot => { slot with putFaults := Assoc.erase entry slot.putFaults }
  modify fun slot => { slot with put := Assoc.insert entry value slot.put }

/-- One entry is supplied. -/
def supplyEntry (scope : Scope) (key : FaultKey) (entry : String) (given : Except Cause α)
    (fallback : α) : Update (MapSlot α) Unit :=
  match given with
  | .ok value => insert entry value
  | .error cause => do
    let fault ← ofExcept (scope.fail key cause)
    modify fun slot => { slot with putFaults := Assoc.insert entry (.leaf fault) slot.putFaults }
    modify fun slot => { slot with put := Assoc.insert entry fallback slot.put }

/-- One part is supplied. -/
def supplyPart [HasFaults α] (scope : Scope) (key : FaultKey) (entry : String)
    (given : Except Cause α) (fallback : α) : Update (MapSlot α) Unit :=
  match given with
  | .ok part => insert entry part
  | .error cause => do
    let fault ← ofExcept (scope.fail key cause)
    insert entry (HasFaults.mark fault fallback)

end MapSlot.InPlace

/-! ### Fields of any shape -/

namespace Shape

/-- What a workbench holds in a field. -/
@[reducible] def Store : Shape → Type
  | required α | optional α | @requiredPart α _ | @optionalPart α _ => Flowsheet.Slot α
  | list α | @parts α _ => ListStore α
  | @namedParts α _ => MapSlot α

/-- The storage of a field without any call. -/
def unsetStore : (s : Shape) → s.Store
  | required _ | optional _ | @requiredPart _ _ | @optionalPart _ _ => .unset
  | list _ | @parts _ _ => ⟨[], .empty, [], []⟩
  | @namedParts _ _ => .unset

/-- Makes a setter call. -/
def perform (scope : Scope) (key : FaultKey) : (s : Shape) → s.Call → Update s.Store Unit
  | required _, .set v | optional _, .set v => Flowsheet.Slot.InPlace.assignOptional (some v)
  | required _, .supply given fallback => Flowsheet.Slot.InPlace.supply scope key given fallback
  | optional _, .supply given fallback =>
    Flowsheet.Slot.InPlace.supplyOptional scope key given fallback
  | @requiredPart _ _, .set v | @optionalPart _ _, .set v =>
    Flowsheet.Slot.InPlace.assignOptionalPart (some v)
  | @requiredPart _ _, .supply given fallback =>
    Flowsheet.Slot.InPlace.supplyPart scope key given fallback
  | @optionalPart _ _, .supply given fallback =>
    Flowsheet.Slot.InPlace.supplyOptionalPart scope key given fallback
  | list _, .setAll vs | @parts _ _, .setAll vs => ListStore.assignAll vs
  | list _, .supplyAll given fallback | @parts _ _, .supplyAll given fallback =>
    ListStore.supplyAll scope key given fallback
  | list _, .add v | @parts _ _, .add v => ListStore.push v
  | list _, .supplyOne given fallback => ListStore.supplyElement scope key given fallback
  | @parts _ _, .supplyOne given fallback => ListStore.supplyPart scope key given fallback
  | @namedParts _ _, .setAll es => MapSlot.InPlace.assignAll es
  | @namedParts _ _, .supplyAll given fallback => MapSlot.InPlace.supplyAll scope key given fallback
  | @namedParts _ _, .put k v => MapSlot.InPlace.insert k v
  | @namedParts _ _, .supplyOne k given fallback =>
    MapSlot.InPlace.supplyPart scope key k given fallback

/-- What happens to a field when the build is finished. -/
def performRequire (scope : Scope) (key : FaultKey) : (s : Shape) → Update s.Store Unit
  | required _ | @requiredPart _ _ => Flowsheet.Slot.InPlace.require scope key
  | optional _ | @optionalPart _ _ | list _ | @parts _ _ | @namedParts _ _ => pure ()

/-- What a finished entity takes over from the storage of a field. -/
def storedContent : (s : Shape) → s.Store → s.Content
  | required _, store | optional _, store | @requiredPart _ _, store | @optionalPart _ _, store =>
    store.value
  | list _, store | @parts _ _, store => store.values
  | @namedParts _ _, store => store.entries

/-- The tree that a finished entity takes over from the storage of a field. -/
def storedFaults : (s : Shape) → s.Store → FaultTree
  | required _, store | optional _, store | @requiredPart _ _, store | @optionalPart _ _, store =>
    store.faults
  | list _, store => store.faults
  | @parts _ _, store => store.partFaults
  | @namedParts _ _, store => store.partFaults

end Shape

/-! ### Workbenches -/

/-- A record while it is being built, in storage that calls overwrite. -/
structure Workbench (L : Layout) where
  /-- What happens to a field that cannot be supplied. -/
  mode : BuildMode
  /-- What is stored of each field. -/
  store : (f : L.Field) → (L.shape f).Store

namespace Workbench

variable {L : Layout}

/-- A workbench before any call. -/
def new (L : Layout) (mode : BuildMode) : Workbench L := ⟨mode, fun f => (L.shape f).unsetStore⟩

/-- What failures at this workbench are reported as. -/
def scope (b : Workbench L) : Scope := ⟨L.entity, b.mode⟩

/-- The workbench with other storage at one field. -/
def setStore (b : Workbench L) (f : L.Field) (s : (L.shape f).Store) : Workbench L where
  mode := b.mode
  store g := if h : f = g then h ▸ s else b.store g

/-- An update of one field's storage. What it wrote is there also if it ended early. -/
def onField (f : L.Field) (u : Scope → Update (L.shape f).Store Unit) : Update (Workbench L) Unit :=
  fun b => match (u b.scope).run (b.store f) with
    | .ok _ s => .ok () (b.setStore f s)
    | .error e s => .error e (b.setStore f s)

/-- Makes a setter call. -/
def perform (c : Builder.Call L) : Update (Workbench L) Unit :=
  onField c.field fun scope => (L.shape c.field).perform scope (L.key c.field) c.setter

/-- The workbench after some calls, of which any may have failed. -/
def after (b : Workbench L) (calls : List (Builder.Call L)) : Workbench L :=
  calls.foldl (fun b c => (perform c).after b) b

/-- For each call the error with which it failed, if it did. -/
def errors (b : Workbench L) : List (Builder.Call L) → List (Option BuildError)
  | [] => []
  | c :: rest => (perform c).error? b :: errors ((perform c).after b) rest

/-- Records a required field without any call as missing. -/
def require (f : L.Field) : Update (Workbench L) Unit :=
  onField f fun scope => (L.shape f).performRequire scope (L.key f)

/-- The record that the storage makes up. -/
def toRecord (b : Workbench L) : Record L where
  get f := (L.shape f).storedContent (b.store f)
  faults := FaultTree.merge none
    (L.fields.map fun f => (L.key f, (L.shape f).storedFaults (b.store f)))

/-- Finishes a build. -/
def build (b : Workbench L) : Except BuildError (Record L) :=
  (Update.outcome (L.fields.forM require) b).map toRecord

end Workbench

end Flowsheet
