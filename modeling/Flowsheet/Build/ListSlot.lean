import Flowsheet.Build.Slot

/-!
# List fields

A list is fed in two ways: as a whole, where a later call replaces an earlier one, and element by
element. The finished list has the whole first and the single elements after it, however the calls
were mixed. A fault of a single element is keyed by the element's place in the finished list.
-/

namespace Flowsheet

/-- A list field, while it is being built. -/
structure ListSlot (α : Type) where
  /-- The list that was given as a whole. -/
  bulk : List α
  /-- The faults that came with it. -/
  bulkFaults : FaultTree
  /-- The elements that were given one by one, each with the fault it fell back for. -/
  added : List (α × Option Fault)

namespace ListSlot

variable {α : Type}

/-- A field without any call. -/
def unset : ListSlot α := ⟨[], .empty, []⟩

instance : Inhabited (ListSlot α) := ⟨unset⟩

/-- A field taken over from a finished value, with the faults it has there. -/
def copied (values : List α) (faults : FaultTree) : ListSlot α := ⟨values, faults, []⟩

/-- The number of elements so far. -/
def size (slot : ListSlot α) : Nat := slot.bulk.length + slot.added.length

/-! ### Setter calls -/

/-- The whole list is given. -/
def assignAll (values : List α) (slot : ListSlot α) : ListSlot α :=
  { slot with bulk := values, bulkFaults := .empty }

/-- The whole list is supplied. -/
def supplyAll (scope : Scope) (key : FaultKey) (given : Except Cause (List α)) (fallback : List α)
    (slot : ListSlot α) : Except BuildError (ListSlot α) :=
  match given with
  | .ok values => .ok (slot.assignAll values)
  | .error cause => (scope.fail key cause).map fun fault =>
    { slot with bulk := fallback, bulkFaults := FaultTree.empty.inject fault }

/-- One element is given. -/
def push (value : α) (slot : ListSlot α) : ListSlot α :=
  { slot with added := slot.added ++ [(value, none)] }

/-- One element is supplied. -/
def supplyElement (scope : Scope) (key : FaultKey) (given : Except Cause α) (fallback : α)
    (slot : ListSlot α) : Except BuildError (ListSlot α) :=
  match given with
  | .ok value => .ok (slot.push value)
  | .error cause => (scope.fail key cause).map fun fault =>
    { slot with added := slot.added ++ [(fallback, some fault)] }

/-- One part is supplied; a fallback carries the fault itself. -/
def supplyPart [HasFaults α] (scope : Scope) (key : FaultKey) (given : Except Cause α)
    (fallback : α) (slot : ListSlot α) : Except BuildError (ListSlot α) :=
  match given with
  | .ok part => .ok (slot.push part)
  | .error cause =>
    (scope.fail key cause).map fun fault => slot.push (HasFaults.mark fault fallback)

/-! ### The finished list -/

/-- All elements in their final order. -/
def values (slot : ListSlot α) : List α := slot.bulk ++ slot.added.map (·.1)

/-- The trees of the single elements that fell back, keyed by final place; `offset` is the place of
the first. -/
def addedFaults (offset : Nat) : List (α × Option Fault) → List (FaultKey × FaultTree)
  | [] => []
  | (_, none) :: rest => addedFaults (offset + 1) rest
  | (_, some fault) :: rest => (.index offset, .leaf fault) :: addedFaults (offset + 1) rest

/-- The tree of a list of plain values: what came with the whole, then the single elements. -/
def faults (slot : ListSlot α) : FaultTree :=
  FaultTree.merge slot.bulkFaults.fault?
    (slot.bulkFaults.children ++ addedFaults slot.bulk.length slot.added)

/-- The own trees of a list of parts, keyed by place; `offset` is the place of the first. -/
def partFaultsFrom [HasFaults α] (offset : Nat) : List α → List (FaultKey × FaultTree)
  | [] => []
  | part :: rest => (.index offset, HasFaults.faults part) :: partFaultsFrom (offset + 1) rest

/-- The tree of a list of parts: each part's own tree under its place. -/
def partFaults [HasFaults α] (slot : ListSlot α) : FaultTree :=
  FaultTree.merge slot.bulkFaults.fault? (partFaultsFrom 0 slot.values)

end ListSlot

/-! ### Calls -/

/-- A setter call of a list field. -/
inductive ListCall (α : Type) where
  /-- The whole list is given. -/
  | setAll (values : List α)
  /-- The whole list is supplied. -/
  | supplyAll (given : Except Cause (List α)) (fallback : List α)
  /-- One element is given. -/
  | add (value : α)
  /-- One element is supplied. -/
  | supplyOne (given : Except Cause α) (fallback : α)

end Flowsheet
