import Flowsheet.Proofs.Build.Order
import Flowsheet.Proofs.Build.Trees
import Flowsheet.Proofs.Fault.History

/-!
# The fault that a field fell back for

About a field as a whole the last call about it decides (`Shape.deciding?`), and the field fell back
if the supply of that call failed, or if it is required and there was no call (`Shape.fellBack?`).
The fault that an entity shows for a field is the one that the field fell back for
(`supplyFault?_eq`), with one exception: a single part that was handed over with a fault at the root
of its own tree shows that fault, although nothing fell back (`not_supplyFault?_eq_fellBack?`).

That calls about members do not count here is a matter of `Shape.SameWhole`: the fault at the root
of a field's tree depends on nothing else (`Shape.fault?_faults_congr`).
-/

namespace Flowsheet

/-! ### The root of a slot's tree -/

section

variable {α : Type}

/-- A fallback part carries the fault on top of its own. -/
theorem Slot.fault?_faults_fallenBackPart [HasFaults α] (fallback : Option α) (fault : Fault) :
    (fallenBackPart fallback fault).faults.fault? = some fault := by
  cases fallback with
  | none => rfl
  | some part =>
      show (HasFaults.faults (HasFaults.mark fault part)).fault? = _
      rw [HasFaults.faults_mark, FaultTree.fault?_inject]

/-- The tree of a list of plain values has the fault for which the whole list fell back. -/
theorem ListSlot.fault?_faults (slot : ListSlot α) :
    slot.faults.fault? = slot.bulkFaults.fault? := FaultTree.fault?_merge _ _

/-- The tree of a list of parts has the fault for which the whole list fell back. -/
theorem ListSlot.fault?_partFaults [HasFaults α] (slot : ListSlot α) :
    slot.partFaults.fault? = slot.bulkFaults.fault? := FaultTree.fault?_merge _ _

/-- The tree of a map of parts has the fault for which the whole map fell back. -/
theorem MapSlot.fault?_partFaults [HasFaults α] (slot : MapSlot α) :
    slot.partFaults.fault? = slot.bulkFaults.fault? := FaultTree.fault?_merge _ _

end

/-! ### What decides about a field -/

namespace Shape

/-- The call that decides about a field: the last one about the field as a whole. -/
def deciding? (s : Shape) (cs : List s.Call) : Option s.Call := (cs.filter s.isWhole).getLast?

/-- The fault for which a field of some name fell back: that of the failed supply of the deciding
call, or that a required field had no call. -/
def fellBack? (s : Shape) (name : String) (cs : List s.Call) : Option Fault :=
  match s.deciding? cs with
  | some c => (s.cause? c).map Fault.mk
  | none => if s.isRequired then some (Fault.missing name) else none

/-- The fault at the root of the single part that a call hands over. -/
def partFault? : (s : Shape) → s.Call → Option Fault
  | @requiredPart _ _, .set part | @requiredPart _ _, .supply (.ok part) _
  | @optionalPart _ _, .set part | @optionalPart _ _, .supply (.ok (some part)) _ =>
    (HasFaults.faults part).fault?
  | @requiredPart _ _, .supply (.error _) _ | @optionalPart _ _, .supply (.error _) _
  | @optionalPart _ _, .supply (.ok none) _ => none
  | required _, _ | optional _, _ | list _, _ | @parts _ _, _ | @namedParts _ _, _ => none

/-! ### The root of a field's tree -/

variable {s : Shape}

/-- The end of a build treats slots alike that agree in the whole. -/
theorem sameWhole_settled (key : FaultKey) {a b : s.Slot} (h : s.SameWhole a b) :
    s.SameWhole (s.settled key a) (s.settled key b) := by
  cases s with
  | required | requiredPart =>
      obtain rfl : a = b := h
      exact SameWhole.refl _
  | optional | optionalPart | list | parts | namedParts => exact h

/-- The fault at the root of a field's tree is no matter of the members. -/
theorem fault?_faults_congr {a b : s.Slot} (h : s.SameWhole a b) :
    (s.faults a).fault? = (s.faults b).fault? := by
  cases s with
  | required | optional | requiredPart | optionalPart =>
      obtain rfl : a = b := h
      rfl
  | list =>
      exact (ListSlot.fault?_faults a).trans
        ((congrArg FaultTree.fault? h.2).trans (ListSlot.fault?_faults b).symm)
  | parts =>
      exact (ListSlot.fault?_partFaults a).trans
        ((congrArg FaultTree.fault? h.2).trans (ListSlot.fault?_partFaults b).symm)
  | namedParts =>
      exact (MapSlot.fault?_partFaults a).trans
        ((congrArg FaultTree.fault? h.2).trans (MapSlot.fault?_partFaults b).symm)

/-- A call about the whole leaves its own fault at the root, or that of the part it hands over. -/
theorem fault?_faults_applied {c : s.Call} (hc : s.isWhole c = true) (slot : s.Slot) :
    (s.faults (s.applied c slot)).fault? = ((s.cause? c).map Fault.mk).or (s.partFault? c) := by
  cases s with
  | required | optional => rcases c with v | ⟨cause | v, fallback⟩ <;> rfl
  | requiredPart =>
      rcases c with part | ⟨cause | part, fallback⟩
      · rfl
      · exact Slot.fault?_faults_fallenBackPart fallback _
      · rfl
  | optionalPart =>
      rcases c with part | ⟨cause | _ | part, fallback⟩
      · rfl
      · exact Slot.fault?_faults_fallenBackPart fallback _
      · rfl
      · rfl
  | list α =>
      refine (ListSlot.fault?_faults ((list α).applied c slot)).trans ?_
      rcases c with vs | ⟨cause | vs, fallback⟩ | v | ⟨v, fallback⟩
      · rfl
      · rfl
      · rfl
      · cases hc
      · cases hc
  | parts α =>
      refine (ListSlot.fault?_partFaults ((parts α).applied c slot)).trans ?_
      rcases c with vs | ⟨cause | vs, fallback⟩ | v | ⟨v, fallback⟩
      · rfl
      · rfl
      · rfl
      · cases hc
      · cases hc
  | namedParts α =>
      refine (MapSlot.fault?_partFaults ((namedParts α).applied c slot)).trans ?_
      rcases c with es | ⟨cause | es, fallback⟩ | ⟨k, v⟩ | ⟨k, v, fallback⟩
      · rfl
      · rfl
      · rfl
      · cases hc
      · cases hc

/-- The fault at the root of a field's tree after any calls. -/
theorem fault?_faults_after (key : FaultKey) (cs : List s.Call) :
    (s.faults (s.settled key (s.after s.unset cs))).fault? =
      (s.fellBack? key.text cs).or ((s.deciding? cs).bind s.partFault?) := by
  have hwhole := sameWhole_settled key (sameWhole_after s.unset cs)
  rw [fault?_faults_congr hwhole, fellBack?, deciding?]
  cases hlast : (cs.filter s.isWhole).getLast? with
  | none =>
      show (s.faults (s.settled key s.unset)).fault? = _
      rw [faults_settled_unset]
      cases s.isRequired <;> rfl
  | some c =>
      have hc : s.isWhole c = true :=
        List.of_mem_filter (List.mem_of_getLast? hlast)
      show (s.faults (s.settled key (s.applied c s.unset))).fault? = _
      rw [settled_of_not_isMissing key (isMissing_applied s c _)]
      exact fault?_faults_applied hc _

end Shape

/-! ### Built entities -/

/-- What a built record shows for a field is at the root of the tree of the field. -/
theorem Builder.fault?_field?_toRecord {L : Layout} (b : Builder L) (f : L.Field) :
    (b.toRecord.faults.field? (L.name f)).bind FaultTree.fault? =
      ((L.shape f).faults (b.slot f)).fault? := by
  rw [← subtree_toRecord, FaultTree.subtree]
  cases b.toRecord.faults.field? (L.name f) with
  | none => rfl
  | some t => rfl

section

variable {E : Type} [Entity E]

/-- Calls to a new tolerant builder lead to an entity. The fault that it shows for a field is the
one that the field fell back for, or else the one at the root of the part that the deciding call
handed over. -/
theorem supplyFault?_eq (calls : List (Builder.Call (Entity.layout E)))
    (f : (Entity.layout E).Field) :
    ∃ e : E, ((Builder.new (Entity.layout E) .tolerant).run calls >>= Builder.finish) = .ok e ∧
      Entity.supplyFault? e f =
        (((Entity.layout E).shape f).fellBack? ((Entity.layout E).name f)
          (Builder.callsTo f calls)).or
            ((((Entity.layout E).shape f).deciding? (Builder.callsTo f calls)).bind
              ((Entity.layout E).shape f).partFault?) := by
  have hnew : (Builder.new (Entity.layout E) .tolerant).mode = .tolerant := rfl
  refine ⟨Entity.ofRecord ((Builder.new _ .tolerant).attempts calls).settled.toRecord, ?_, ?_⟩
  · rw [Builder.run_tolerant hnew]
    show ((Builder.new _ .tolerant).attempts calls).build.map Entity.ofRecord = _
    rw [Builder.build_tolerant (Builder.mode_attempts _ calls)]
    rfl
  · have hslot := Builder.slot_attempts hnew calls f
    show ((Entity.toRecord (Entity.ofRecord (E := E) _)).faults.field? _).bind FaultTree.fault? = _
    rw [Entity.toRecord_ofRecord, Builder.fault?_field?_toRecord]
    show (((Entity.layout E).shape f).faults (((Entity.layout E).shape f).settled _ _)).fault? = _
    rw [hslot]
    exact Shape.fault?_faults_after ((Entity.layout E).key f) _

end

/-- Calls that hand over a rectangle which is marked with a fault. -/
def markedBoundsCalls : List (Builder.Call (Entity.layout Node)) :=
  [⟨.bounds, .set (HasFaults.mark ⟨.text "unreadable"⟩ (Entity.placeholder Bounds))⟩]

/-- The field of the marked rectangle shows its fault, although it was set and did not fall back. -/
theorem not_supplyFault?_eq_fellBack? :
    ¬ ∀ (calls : List (Builder.Call (Entity.layout Node))) (f : (Entity.layout Node).Field)
      (e : Node),
      ((Builder.new (Entity.layout Node) .tolerant).run calls >>= Builder.finish) = .ok e →
        Entity.supplyFault? e f = ((Entity.layout Node).shape f).fellBack?
          ((Entity.layout Node).name f) (Builder.callsTo f calls) := by
  intro hall
  have hshown := hall markedBoundsCalls .bounds _ rfl
  cases hshown

end Flowsheet
