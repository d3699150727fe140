import Flowsheet.Proofs.Build.Reachable

/-!
# No silent gaps

A required field of an entity that can be made either holds a value or has a tree that is not empty
(`Reachable.accounted`). So an entity without faults has a value in every required field, and so has
every entity below it (`Reachable.complete`).

The invariant of a builder is `Shape.Accounted`: a required field that had a call and holds no value
has a fault. Every call brings it about, whatever the field was like before (`accounted_applied`),
and taking over an entity's field keeps it (`accounted_copied`). Fields without any call get their
fault when the build is finished.
-/

namespace Flowsheet

open FaultTree

/-! ### Fields -/

namespace Shape

/-- Whether a value has to stand in the field and none does. -/
def isVacant : (s : Shape) → s.Content → Bool
  | required _, c | @requiredPart _ _, c => c.isNone
  | optional _, _ | @optionalPart _ _, _ | list _, _ | @parts _ _, _ | @namedParts _ _, _ => false

/-- A required field that had a call and holds no value has a fault. -/
def Accounted (s : Shape) (slot : s.Slot) : Prop :=
  s.isMissing slot = false → s.isVacant (s.content slot) = true → s.faults slot ≠ .empty

/-- An untouched field has nothing to account for yet. -/
theorem accounted_unset (s : Shape) : s.Accounted s.unset := by
  intro hset hvacant
  cases s with
  | required _ | requiredPart _ => cases hset
  | optional _ | optionalPart _ | list _ | parts _ | namedParts _ => cases hvacant

/-- A field that is taken over is accounted for if the finished one was. -/
theorem accounted_copied {s : Shape} {c : s.Content} {t : FaultTree}
    (h : s.isVacant c = true → t ≠ .empty) : s.Accounted (s.copied c t) := by
  intro _ hvacant
  cases s with
  | required _ | requiredPart _ => exact h hvacant
  | optional _ | optionalPart _ | list _ | parts _ | namedParts _ => cases hvacant

/-- Whatever is supplied, either a value or a fault is stored. -/
theorem accounted_applied (s : Shape) (c : s.Call) (slot : s.Slot) :
    s.Accounted (s.applied c slot) := by
  intro _ hvacant
  cases s with
  | required _ =>
      rcases c with v | ⟨e | v, fallback⟩
      · cases hvacant
      · exact FaultTree.noConfusion
      · cases hvacant
  | requiredPart _ =>
      rcases c with v | ⟨e | v, _ | fallback⟩
      · cases hvacant
      · exact FaultTree.noConfusion
      · cases hvacant
      · cases hvacant
      · cases hvacant
  | optional _ | optionalPart _ | list _ | parts _ | namedParts _ => cases hvacant

/-- At the end of a build every required field has a value or a fault. -/
theorem Accounted.settled {s : Shape} {slot : s.Slot} (h : s.Accounted slot) (key : FaultKey)
    (hvacant : s.isVacant (s.content (s.settled key slot)) = true) :
    s.faults (s.settled key slot) ≠ .empty := by
  cases hmissing : s.isMissing slot with
  | true =>
      rw [faults_settled_of_isMissing key hmissing]
      exact FaultTree.noConfusion
  | false =>
      rw [settled_of_not_isMissing key hmissing] at hvacant ⊢
      exact h hmissing hvacant

end Shape

/-! ### Entities -/

namespace AnyEntity

/-- Whether a value has to stand in a field of the entity and none does. -/
def isVacant (x : AnyEntity) (f : x.1.layout.Field) : Bool :=
  (x.1.layout.shape f).isVacant (x.2.get f)

/-- Every required field holds a value. -/
def IsComplete (x : AnyEntity) : Prop := ∀ f, x.isVacant f = false

/-- Every required field without a value has a fault. -/
def Accounted (x : AnyEntity) : Prop :=
  ∀ f, x.isVacant f = true → x.faults.subtree (x.1.layout.name f) ≠ .empty

/-- What a finished build hands over. -/
theorem accounted_toRecord {t : EntityType} {b : Builder t.layout}
    (h : ∀ f, (t.layout.shape f).Accounted (b.slot f)) :
    Accounted ⟨t, b.settled.toRecord⟩ := by
  intro f hvacant
  show b.settled.toRecord.faults.subtree (t.layout.name f) ≠ .empty
  rw [Builder.subtree_toRecord]
  exact (h f).settled (t.layout.key f) hvacant

/-- An entity without faults in which every gap has a fault has no gap. -/
theorem Accounted.isComplete {x : AnyEntity} (h : x.Accounted)
    (hfaults : x.faults.hasFaults = false) : x.IsComplete := by
  intro f
  cases hvacant : x.isVacant f with
  | false => rfl
  | true =>
      have hsome := hasFaults_of_subtree (h f hvacant)
      rw [hfaults] at hsome
      cases hsome

end AnyEntity

namespace Builder

variable {t : EntityType}

/-- Any sequence of calls, some of which may be refused. -/
theorem accounted_attempts {b : Builder t.layout}
    (h : ∀ f, (t.layout.shape f).Accounted (b.slot f)) (calls : List (Call t.layout)) (f) :
    (t.layout.shape f).Accounted ((b.attempts calls).slot f) :=
  attempts_induction (P := fun f slot => (t.layout.shape f).Accounted slot)
    (fun _ _ _ _ => Shape.accounted_applied _ _ _) h f

end Builder

/-- No entity that can be made has a gap without a fault. -/
theorem Reachable.accounted {x : AnyEntity} (h : Reachable x) : x.Accounted := by
  induction h with
  | placeholder t =>
      rw [Record.placeholder_eq]
      exact AnyEntity.accounted_toRecord fun f => Shape.accounted_unset _
  | built mode calls _ _ hbuild _ =>
      rw [Builder.eq_toRecord_settled_of_build hbuild]
      refine AnyEntity.accounted_toRecord (Builder.accounted_attempts (fun f => ?_) calls)
      exact Shape.accounted_unset _
  | rebuilt _ calls _ _ hbuild ih _ =>
      rw [Builder.eq_toRecord_settled_of_build hbuild]
      refine AnyEntity.accounted_toRecord (Builder.accounted_attempts (fun f => ?_) calls)
      exact Shape.accounted_copied (ih f)
  | marked _ fault ih =>
      intro f hvacant
      show (FaultTree.inject fault _).subtree _ ≠ .empty
      rw [subtree_inject]
      exact ih f hvacant

/-- What stands below an entity that can be made can be made. -/
theorem Reachable.of_below {x y : AnyEntity} (h : Reachable x) (hy : Below y x) : Reachable y := by
  induction hy with
  | direct hmem => exact h.invariant.2 _ _ hmem
  | deeper hmem _ ih => exact ih (h.invariant.2 _ _ hmem)

/-- Below an entity without faults there are none. -/
theorem Reachable.hasFaults_eq_false_of_below {x y : AnyEntity} (h : Reachable x)
    (hfaults : x.faults.hasFaults = false) (hy : Below y x) : y.faults.hasFaults = false := by
  refine Bool.eq_false_iff.mpr fun hsome => ?_
  have habove := h.hasFaults_of_below hy hsome
  rw [hfaults] at habove
  cases habove

/-- An entity without faults is complete, and so is every entity below it. -/
theorem Reachable.complete {x : AnyEntity} (h : Reachable x)
    (hfaults : x.faults.hasFaults = false) :
    x.IsComplete ∧ ∀ y, Below y x → y.IsComplete := by
  refine ⟨h.accounted.isComplete hfaults, fun y hy => ?_⟩
  exact (h.of_below hy).accounted.isComplete (h.hasFaults_eq_false_of_below hfaults hy)

end Flowsheet
