import Flowsheet.Build.Slot

/-!
# Map fields

A map is fed in two ways: as a whole, where a later call replaces an earlier one, and entry by
entry. In the finished map single entries stand in place of entries of the whole with the same key,
and new keys follow in the order in which they were first put.
-/

namespace Flowsheet

/-- A map field, while it is being built. -/
structure MapSlot (α : Type) where
  /-- The map that was given as a whole. -/
  bulk : List (String × α)
  /-- The faults that came with it. -/
  bulkFaults : FaultTree
  /-- The entries that were put one by one. -/
  put : List (String × α)
  /-- The faults of those among them that fell back, in the order in which they did. -/
  putFaults : List (String × FaultTree)

namespace MapSlot

variable {α : Type}

/-- A field without any call. -/
def unset : MapSlot α := ⟨[], .empty, [], []⟩

instance : Inhabited (MapSlot α) := ⟨unset⟩

/-- A field taken over from a finished value, with the faults it has there. -/
def copied (entries : List (String × α)) (faults : FaultTree) : MapSlot α :=
  ⟨entries, faults, [], []⟩

/-! ### Setter calls -/

/-- The whole map is given. -/
def assignAll (entries : List (String × α)) (slot : MapSlot α) : MapSlot α :=
  { slot with bulk := entries, bulkFaults := .empty }

/-- The whole map is supplied. -/
def supplyAll (scope : Scope) (key : FaultKey) (given : Except Cause (List (String × α)))
    (fallback : List (String × α)) (slot : MapSlot α) : Except BuildError (MapSlot α) :=
  match given with
  | .ok entries => .ok (slot.assignAll entries)
  | .error cause => (scope.fail key cause).map fun fault =>
    { slot with bulk := fallback, bulkFaults := FaultTree.empty.inject fault }

/-- One entry is put; it replaces an earlier one of its key together with that one's fault. -/
def insert (entry : String) (value : α) (slot : MapSlot α) : MapSlot α :=
  { slot with
    put := Assoc.insert entry value slot.put
    putFaults := Assoc.erase entry slot.putFaults }

/-- One entry is supplied. -/
def supplyEntry (scope : Scope) (key : FaultKey) (entry : String) (given : Except Cause α)
    (fallback : α) (slot : MapSlot α) : Except BuildError (MapSlot α) :=
  match given with
  | .ok value => .ok (slot.insert entry value)
  | .error cause => (scope.fail key cause).map fun fault =>
    { slot with
      put := Assoc.insert entry fallback slot.put
      putFaults := Assoc.insert entry (.leaf fault) slot.putFaults }

/-- One part is supplied; a fallback carries the fault itself. -/
def supplyPart [HasFaults α] (scope : Scope) (key : FaultKey) (entry : String)
    (given : Except Cause α) (fallback : α) (slot : MapSlot α) : Except BuildError (MapSlot α) :=
  match given with
  | .ok part => .ok (slot.insert entry part)
  | .error cause => (scope.fail key cause).map fun fault =>
    slot.insert entry (HasFaults.mark fault fallback)

/-! ### The finished map -/

/-- All entries in their final order. -/
def entries (slot : MapSlot α) : List (String × α) := Assoc.extend slot.bulk slot.put

/-- Whether a key of the tree that came with the whole names an entry put one by one. -/
def isOverwritten (slot : MapSlot α) : FaultKey → Bool
  | .key entry => Assoc.contains entry slot.put
  | .field _ | .index _ | .prior => false

/-- The tree of a map of plain values: what came with the whole and was not overwritten, then the
single entries. -/
def faults (slot : MapSlot α) : FaultTree :=
  FaultTree.merge slot.bulkFaults.fault?
    (slot.bulkFaults.children.filter (fun c => !slot.isOverwritten c.1)
      ++ slot.putFaults.map (fun e => (.key e.1, e.2)))

/-- The tree of a map of parts: each part's own tree under its key. -/
def partFaults [HasFaults α] (slot : MapSlot α) : FaultTree :=
  FaultTree.merge slot.bulkFaults.fault?
    (slot.entries.map fun e => (.key e.1, HasFaults.faults e.2))

end MapSlot

/-! ### Calls -/

/-- A setter call of a map field. -/
inductive MapCall (α : Type) where
  /-- The whole map is given. -/
  | setAll (entries : List (String × α))
  /-- The whole map is supplied. -/
  | supplyAll (given : Except Cause (List (String × α))) (fallback : List (String × α))
  /-- One entry is given. -/
  | put (entry : String) (value : α)
  /-- One entry is supplied. -/
  | supplyOne (entry : String) (given : Except Cause α) (fallback : α)

end Flowsheet
