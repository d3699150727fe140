import Flowsheet.Proofs.Build.Order
import Flowsheet.Proofs.Build.Trees
import Flowsheet.Proofs.Fault.Equality
import Flowsheet.Proofs.Schema

/-!
# Fields that are left out and fields that are supplied as missing

A tolerant build that never sets a required field ends like one that supplies the field with its own
absence, at any point among the other calls: the same contents, and the same faults at the same
places. For plain values the two entities are the same. The bounds of an annotation are the one part
that is required. There the end of a build records a leaf, and the call a tree with a fault of its
own and no children; both have the same fault at the same place, but they are not equal
(`unset_eq_absence`, `not_unset_eq_absence`).

All other calls write to other fields, so it is enough to compare what the end of a build makes of a
field without any call (`Shape.settled`) with what the one call makes of it.
-/

namespace Flowsheet

open FaultTree

/-- The faults below some children depend on the faults of each of them. -/
theorem FaultTree.faultsBelow_map_congr {ι : Type} (items : List ι) (key : ι → FaultKey)
    {tree tree' : ι → FaultTree} (h : ∀ x, (tree x).faults = (tree' x).faults) :
    faultsBelow (items.map fun x => (key x, tree x)) =
      faultsBelow (items.map fun x => (key x, tree' x)) := by
  induction items with
  | nil => rfl
  | cons x rest ih => rw [List.map_cons, List.map_cons, faultsBelow, faultsBelow, ih, h]

namespace Shape

/-- The call that supplies a required field with its own absence. -/
def absence? (name : String) : (s : Shape) → Option s.Call
  | required _ | @requiredPart _ _ => some (.supply (.error (.field (.missing name))) none)
  | optional _ | @optionalPart _ _ | list _ | @parts _ _ | @namedParts _ _ => none

/-- Every required field has such a call, and no other field has. -/
theorem isSome_absence? (name : String) (s : Shape) :
    (s.absence? name).isSome = s.isRequired := by
  cases s <;> rfl

/-- Whether the field is a part that has to be there. -/
def isRequiredPart : Shape → Bool
  | @requiredPart _ _ => true
  | required _ | optional _ | @optionalPart _ _ | list _ | @parts _ _ | @namedParts _ _ => false

section

variable {s : Shape} {name : String} {c : s.Call}

/-- For plain values the call does what the end of a build does. -/
theorem applied_absence (h : s.absence? name = some c) (hpart : s.isRequiredPart = false) :
    s.applied c s.unset = s.settled (.field name) s.unset := by
  cases s with
  | required _ =>
      obtain rfl := Option.some.inj h
      rfl
  | requiredPart _ => cases hpart
  | optional _ | optionalPart _ | list _ | parts _ | namedParts _ => cases h

/-- To supply a required field with its absence leaves it as empty as not to supply it. -/
theorem content_applied_absence (h : s.absence? name = some c) :
    s.content (s.applied c s.unset) = s.content (s.settled (.field name) s.unset) := by
  cases s with
  | required _ | requiredPart _ =>
      obtain rfl := Option.some.inj h
      rfl
  | optional _ | optionalPart _ | list _ | parts _ | namedParts _ => cases h

/-- A part that is supplied as missing has a fault of its own. -/
theorem faults_applied_absence (h : s.absence? name = some c) (hpart : s.isRequiredPart = true) :
    s.faults (s.applied c s.unset) = .node (some (Fault.missing name)) [] := by
  cases s with
  | requiredPart _ =>
      obtain rfl := Option.some.inj h
      rfl
  | required _ | optional _ | optionalPart _ | list _ | parts _ | namedParts _ => cases hpart

/-- A required field that is not supplied ends up with a leaf that says so. -/
theorem faults_settled_absence (h : s.absence? name = some c) :
    s.faults (s.settled (.field name) s.unset) = .leaf (Fault.missing name) := by
  rw [faults_settled_unset, ← isSome_absence? name, h]
  rfl

/-- Either way one fault is recorded, and in the same place. -/
theorem faults_faults_applied_absence (h : s.absence? name = some c) :
    (s.faults (s.applied c s.unset)).faults =
      (s.faults (s.settled (.field name) s.unset)).faults := by
  cases hpart : s.isRequiredPart with
  | false => rw [applied_absence h hpart]
  | true =>
      rw [faults_applied_absence h hpart, faults_settled_absence h]
      rfl

end

end Shape

/-- The bounds of an annotation are the only part that has to be there. -/
theorem EntityType.isRequiredPart_iff (t : EntityType) (f : t.layout.Field) :
    (t.layout.shape f).isRequiredPart = true ↔ t = annotation ∧ t.layout.name f = "bounds" := by
  cases t <;> cases f <;> decide

namespace Builder

variable {L : Layout}

/-- Calls to a new tolerant builder are accepted, and the build finishes. -/
theorem run_new_build (calls : List (Call L)) :
    ((new L .tolerant).run calls >>= build) =
      .ok ((new L .tolerant).attempts calls).settled.toRecord := by
  rw [run_tolerant rfl]
  exact build_tolerant (mode_attempts _ calls)

/-! ### One more call -/

section

variable {pre post : List (Call L)}

/-- Other fields do not see a call. -/
theorem slot_attempts_insert_of_ne {b : Builder L} (hb : b.mode = .tolerant) {c : Call L}
    {g : L.Field} (hg : c.field ≠ g) :
    (b.attempts (pre ++ c :: post)).slot g = (b.attempts (pre ++ post)).slot g := by
  rw [slot_attempts hb, slot_attempts hb, callsTo_append, callsTo_append, callsTo_cons_of_ne hg]

/-- A field without any other call is set by the one call alone. -/
theorem slot_attempts_insert_self {b : Builder L} (hb : b.mode = .tolerant) {c : Call L}
    (h : ∀ d ∈ pre ++ post, d.field ≠ c.field) :
    (b.attempts (pre ++ c :: post)).slot c.field =
      (L.shape c.field).applied c.setter (b.slot c.field) := by
  have hpre := callsTo_eq_nil fun d hd => h d (List.mem_append_left _ hd)
  have hpost := callsTo_eq_nil fun d hd => h d (List.mem_append_right _ hd)
  rw [slot_attempts hb, callsTo_append, callsTo_cons_self, hpre, hpost]
  rfl

variable {f : L.Field} {c : (L.shape f).Call}

/-- At the end of a build, a field without any call. -/
theorem slot_settled_unset (h : ∀ d ∈ pre ++ post, d.field ≠ f) :
    ((new L .tolerant).attempts (pre ++ post)).settled.slot f =
      (L.shape f).settled (L.key f) (L.shape f).unset := by
  show (L.shape f).settled (L.key f) (((new L .tolerant).attempts (pre ++ post)).slot f) = _
  rw [slot_attempts_of_not_called rfl h]
  rfl

/-- At the end of a build, a field that was set by one call. -/
theorem slot_settled_insert (h : ∀ d ∈ pre ++ post, d.field ≠ f) :
    ((new L .tolerant).attempts (pre ++ ⟨f, c⟩ :: post)).settled.slot f =
      (L.shape f).applied c (L.shape f).unset := by
  have hslot : ((new L .tolerant).attempts (pre ++ ⟨f, c⟩ :: post)).slot f =
      (L.shape f).applied c (L.shape f).unset :=
    slot_attempts_insert_self (b := new L .tolerant) rfl h
  show (L.shape f).settled (L.key f) (((new L .tolerant).attempts _).slot f) = _
  rw [hslot, Shape.settled_of_not_isMissing _ (Shape.isMissing_applied _ _ _)]

/-- One more call does not touch the other fields. -/
theorem slot_settled_insert_of_ne {g : L.Field} (hg : g ≠ f) :
    ((new L .tolerant).attempts (pre ++ ⟨f, c⟩ :: post)).settled.slot g =
      ((new L .tolerant).attempts (pre ++ post)).settled.slot g := by
  have hslot : ((new L .tolerant).attempts (pre ++ ⟨f, c⟩ :: post)).slot g =
      ((new L .tolerant).attempts (pre ++ post)).slot g :=
    slot_attempts_insert_of_ne (b := new L .tolerant) rfl hg.symm
  exact congrArg ((L.shape g).settled (L.key g)) hslot

/-- How the slots at the end of the two builds compare is a matter of the one field. -/
theorem slots_settled_insert (h : ∀ d ∈ pre ++ post, d.field ≠ f)
    {P : (g : L.Field) → (L.shape g).Slot → (L.shape g).Slot → Prop}
    (hsame : ∀ g slot, P g slot slot)
    (hfield : P f ((L.shape f).settled (L.key f) (L.shape f).unset)
      ((L.shape f).applied c (L.shape f).unset)) (g : L.Field) :
    P g (((new L .tolerant).attempts (pre ++ post)).settled.slot g)
      (((new L .tolerant).attempts (pre ++ ⟨f, c⟩ :: post)).settled.slot g) := by
  by_cases hg : g = f
  · subst hg
    rw [slot_settled_unset h, slot_settled_insert h]
    exact hfield
  · rw [slot_settled_insert_of_ne hg]
    exact hsame g _

/-! ### The two entities -/

/-- The faults of a record are those of its fields in order. -/
theorem faults_toRecord (b : Builder L) : b.toRecord.faults.faults =
    faultsBelow (L.fieldTrees fun f => (L.shape f).faults (b.slot f)) :=
  faults_merge (L.nodup_keys_fieldTrees _)

variable (hc : (L.shape f).absence? (L.name f) = some c) (h : ∀ d ∈ pre ++ post, d.field ≠ f)

include hc h

/-- They hold the same. -/
theorem get_absence :
    ((new L .tolerant).attempts (pre ++ post)).settled.toRecord.get =
      ((new L .tolerant).attempts (pre ++ ⟨f, c⟩ :: post)).settled.toRecord.get := by
  funext g
  exact slots_settled_insert h (P := fun g a b => (L.shape g).content a = (L.shape g).content b)
    (fun _ _ => rfl) (Shape.content_applied_absence hc).symm g

/-- They record the same faults in the same places. -/
theorem faults_absence :
    ((new L .tolerant).attempts (pre ++ post)).settled.toRecord.faults.faults =
      ((new L .tolerant).attempts (pre ++ ⟨f, c⟩ :: post)).settled.toRecord.faults.faults := by
  rw [faults_toRecord, faults_toRecord]
  refine faultsBelow_map_congr L.fields L.key fun g => ?_
  exact slots_settled_insert h
    (P := fun g a b => ((L.shape g).faults a).faults = ((L.shape g).faults b).faults)
    (fun _ _ => rfl) (Shape.faults_faults_applied_absence hc).symm g

/-- For plain values they are the same. -/
theorem toRecord_absence (hpart : (L.shape f).isRequiredPart = false) :
    ((new L .tolerant).attempts (pre ++ post)).settled.toRecord =
      ((new L .tolerant).attempts (pre ++ ⟨f, c⟩ :: post)).settled.toRecord := by
  have hslot : ((new L .tolerant).attempts (pre ++ post)).settled.slot =
      ((new L .tolerant).attempts (pre ++ ⟨f, c⟩ :: post)).settled.slot := by
    funext g
    exact slots_settled_insert h (P := fun _ a b => a = b) (fun _ _ => rfl)
      (Shape.applied_absence hc hpart).symm g
  unfold toRecord
  rw [hslot]

/-- For a part one has a leaf at the field, the other a tree with a fault of its own. -/
theorem subtree_absence (hpart : (L.shape f).isRequiredPart = true) :
    ((new L .tolerant).attempts (pre ++ post)).settled.toRecord.faults.subtree (L.name f) =
        .leaf (Fault.missing (L.name f)) ∧
      ((new L .tolerant).attempts
        (pre ++ ⟨f, c⟩ :: post)).settled.toRecord.faults.subtree (L.name f) =
        .node (some (Fault.missing (L.name f))) [] := by
  rw [subtree_toRecord, subtree_toRecord, slot_settled_unset h, slot_settled_insert h]
  exact ⟨Shape.faults_settled_absence hc, Shape.faults_applied_absence hc hpart⟩

/-- So for a part the trees of the two are not equal. -/
theorem beq_absence (hpart : (L.shape f).isRequiredPart = true) :
    (((new L .tolerant).attempts (pre ++ post)).settled.toRecord.faults ==
      ((new L .tolerant).attempts (pre ++ ⟨f, c⟩ :: post)).settled.toRecord.faults) = false := by
  obtain ⟨hleaf, hnode⟩ := subtree_absence hc h hpart
  rw [← Bool.not_eq_true]
  intro hsame
  obtain ⟨d, hd, hequal⟩ := child?_of_beq hsame (field?_of_subtree hleaf FaultTree.noConfusion)
  obtain rfl := Option.some.inj ((field?_of_subtree hnode FaultTree.noConfusion).symm.trans hd)
  cases hequal

end

end Builder

open EntityType in
/-- Two tolerant builds of any type of entity, with the same calls but for one that supplies a
required field, set by no other call, with its own absence. Both finish, the entities hold the same
and have the same trees at all other fields, and the same faults are recorded in the same places.
The entities are the same, except for the bounds of an annotation: without the call their tree is a
leaf, with it it has a fault of its own instead, and so the two trees are not equal. -/
theorem unset_eq_absence {t : EntityType} {f : t.layout.Field} {c : (t.layout.shape f).Call}
    (hc : (t.layout.shape f).absence? (t.layout.name f) = some c)
    {pre post : List (Builder.Call t.layout)} (h : ∀ d ∈ pre ++ post, d.field ≠ f) :
    ∃ r r', ((Builder.new t.layout .tolerant).run (pre ++ post) >>= Builder.build) = .ok r ∧
      ((Builder.new t.layout .tolerant).run (pre ++ ⟨f, c⟩ :: post) >>= Builder.build) = .ok r' ∧
      r.get = r'.get ∧ r.faults.faults = r'.faults.faults ∧
      (∀ g, g ≠ f →
        r.faults.subtree (t.layout.name g) = r'.faults.subtree (t.layout.name g)) ∧
      (¬(t = annotation ∧ t.layout.name f = "bounds") → r = r') ∧
      (t = annotation ∧ t.layout.name f = "bounds" →
        r.faults.subtree "bounds" = .leaf (Fault.missing "bounds") ∧
        r'.faults.subtree "bounds" = .node (some (Fault.missing "bounds")) [] ∧
        (r.faults == r'.faults) = false) := by
  refine ⟨_, _, Builder.run_new_build _, Builder.run_new_build _, Builder.get_absence hc h,
    Builder.faults_absence hc h, fun g hg => ?_, fun hplain => ?_, fun hbounds => ?_⟩
  · rw [Builder.subtree_toRecord, Builder.subtree_toRecord, Builder.slot_settled_insert_of_ne hg]
  · apply Builder.toRecord_absence hc h
    rw [← Bool.not_eq_true]
    exact fun hpart => hplain ((t.isRequiredPart_iff f).mp hpart)
  · have hpart := (t.isRequiredPart_iff f).mpr hbounds
    obtain ⟨hleaf, hnode⟩ := Builder.subtree_absence hc h hpart
    rw [← hbounds.2]
    exact ⟨hleaf, hnode, Builder.beq_absence hc h hpart⟩

/-- A node without an id, and one whose id is supplied as missing in between. -/
def namelessCalls : List (Builder.Call Node.layout) :=
  [⟨.kind, .set .native⟩, ⟨.inPorts, .add (Entity.placeholder Port)⟩]

/-- The two nodes are the same. -/
theorem unset_eq_absence_namelessNode :
    (Node.layout.shape .id).absence? "id" =
        some (.supply (.error (.field (.missing "id"))) none) ∧
      ∃ r, ((Builder.new Node.layout .tolerant).run namelessCalls >>= Builder.build) = .ok r ∧
        ((Builder.new Node.layout .tolerant).run
          (namelessCalls.take 1 ++ ⟨.id, .supply (.error (.field (.missing "id"))) none⟩ ::
            namelessCalls.drop 1) >>= Builder.build) = .ok r := by
  refine ⟨rfl, ?_⟩
  have huncalled : ∀ d ∈ namelessCalls.take 1 ++ namelessCalls.drop 1, d.field ≠ .id := by
    intro d hd
    rcases List.mem_cons.mp hd with rfl | hd
    · exact nofun
    · obtain rfl := List.mem_singleton.mp hd
      exact nofun
  obtain ⟨r, r', hr, hr', -, -, -, hsame, -⟩ :=
    unset_eq_absence (t := .node) (f := Node.Field.id) rfl huncalled
  rw [← hsame nofun] at hr'
  exact ⟨r, hr, hr'⟩

open EntityType in
/-- Not all such entities are equal: an annotation without bounds, and one whose bounds are supplied
as missing. -/
theorem not_unset_eq_absence :
    ¬ ∀ (t : EntityType) (f : t.layout.Field) (c : (t.layout.shape f).Call)
      (pre post : List (Builder.Call t.layout)),
      (t.layout.shape f).absence? (t.layout.name f) = some c →
      (∀ d ∈ pre ++ post, d.field ≠ f) →
      ∃ r r', ((Builder.new t.layout .tolerant).run (pre ++ post) >>= Builder.build) = .ok r ∧
        ((Builder.new t.layout .tolerant).run (pre ++ ⟨f, c⟩ :: post) >>= Builder.build) = .ok r' ∧
        r.get = r'.get ∧ (r.faults == r'.faults) = true := by
  intro hall
  obtain ⟨r, r', hr, hr', -, hsame⟩ :=
    hall annotation .bounds (.supply (.error (.field (.missing "bounds"))) none) [] [] rfl
      fun d hd => absurd hd List.not_mem_nil
  rw [Builder.run_new_build] at hr hr'
  obtain rfl := Except.ok.inj hr
  obtain rfl := Except.ok.inj hr'
  cases hsame

end Flowsheet
