import Flowsheet.Build.Scope
import Flowsheet.Fault.Tree

/-!
# Fields with at most one value

A slot is what a builder knows of such a field: its value, the faults of the last supply, and
whether anything was supplied at all. A setter call replaces the whole slot, so each of them is
written as a function that makes the new slot; the last call counts and faults never pile up. Only
`require` looks at the slot it is given.

Parts are values with faults of their own (`HasFaults`): the slot of a part carries the part's own
tree.
-/

namespace Flowsheet

/-- What the last setter call of a slot came to. -/
inductive SlotState where
  /-- There was no call. -/
  | unset
  /-- A value was supplied. -/
  | supplied
  /-- The supply failed and a fallback is stored. -/
  | faulted
  deriving DecidableEq, Repr, Inhabited

/-- A field with at most one value, while it is being built. -/
structure Slot (α : Type) where
  /-- The value or its fallback. -/
  value : Option α
  /-- The faults of the last supply. -/
  faults : FaultTree
  /-- What the last call came to. -/
  state : SlotState

namespace Slot

variable {α : Type}

/-- A field without any call. -/
def unset : Slot α := ⟨none, .empty, .unset⟩

instance : Inhabited (Slot α) := ⟨unset⟩

/-- A field taken over from a finished value, with the faults it has there. -/
def copied (value : Option α) (faults : FaultTree) : Slot α :=
  ⟨value, faults, if faults.hasFaults then .faulted else .supplied⟩

/-! ### Plain values -/

/-- A value that is simply given. -/
def assigned (value : Option α) : Slot α := ⟨value, .empty, .supplied⟩

/-- A fallback and the fault that made it necessary. -/
def fallenBack (fallback : Option α) (fault : Fault) : Slot α := ⟨fallback, .leaf fault, .faulted⟩

/-- A supply, in which `none` is a legitimate absent value. -/
def supplied (scope : Scope) (key : FaultKey) (given : Except Cause (Option α))
    (fallback : Option α) : Except BuildError (Slot α) :=
  match given with
  | .ok value => .ok (assigned value)
  | .error cause => (scope.fail key cause).map (fallenBack fallback)

/-! ### Parts -/

/-- A part that is simply given; its faults stay visible in the field. -/
def assignedPart [HasFaults α] (part : Option α) : Slot α :=
  ⟨part, (part.map HasFaults.faults).getD .empty, .supplied⟩

/-- A fallback part marked with the fault that made it necessary; without one the fault stands
alone. -/
def fallenBackPart [HasFaults α] (fallback : Option α) (fault : Fault) : Slot α :=
  match fallback with
  | some part =>
    let marked := HasFaults.mark fault part
    ⟨some marked, HasFaults.faults marked, .faulted⟩
  | none => ⟨none, FaultTree.empty.inject fault, .faulted⟩

/-- A supply of a part, in which `none` is a legitimate absent part. -/
def suppliedPart [HasFaults α] (scope : Scope) (key : FaultKey) (given : Except Cause (Option α))
    (fallback : Option α) : Except BuildError (Slot α) :=
  match given with
  | .ok part => .ok (assignedPart part)
  | .error cause => (scope.fail key cause).map (fallenBackPart fallback)

/-! ### Required fields -/

/-- A required field that had no call is supplied with its own absence. -/
def require (scope : Scope) (key : FaultKey) (slot : Slot α) : Except BuildError (Slot α) :=
  match slot.state with
  | .unset => supplied scope key (.error (.field (.missing key.text))) none
  | .supplied | .faulted => .ok slot

end Slot

/-! ### Calls -/

/-- A setter call of a field with at most one value. A supply gives a `γ`: a value of the field, or
an optional one where the field may be absent. -/
inductive SlotCall (γ α : Type) where
  /-- The value is given. -/
  | set (value : α)
  /-- The value is supplied, with a fallback for the case that the supply failed. -/
  | supply (given : Except Cause γ) (fallback : Option α)

end Flowsheet
