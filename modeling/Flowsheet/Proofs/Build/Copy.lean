import Flowsheet.Proofs.Build.Reachable

/-!
# Copies of finished entities

A builder that goes on from a finished entity and is finished at once makes a copy. The copy of any
entity that can be made has the same content in every field and the same tree at every field, but
the entity's own fault and the history below it are gone (`copy_of_reachable`): what is left is
`FaultTree.unmarked`. So the copy has the entity's tree exactly where the entity was never marked.

The invariant is `AnyEntity.IsCopied`. A build establishes it, because merging the trees of fields
that are taken over gives the trees that were taken over (`Shape.faults_copied_content`); a mark
keeps it, because it touches neither the fields nor what is left without marks
(`FaultTree.unmarked_inject`).
-/

namespace Flowsheet

open FaultTree

namespace FaultTree

/-! ### Trees without marks -/

/-- What is left of the tree of an entity without its own fault and the history of that fault. -/
def unmarked (t : FaultTree) : FaultTree := ofParts none (Assoc.erase .prior t.children)

/-- A mark is no part of what is left without marks. -/
@[simp] theorem unmarked_inject (fault : Fault) (t : FaultTree) :
    (t.inject fault).unmarked = t.unmarked := by
  rw [unmarked, unmarked, erase_children_inject]

/-- The tree that a build makes of the trees of the fields has no marks. -/
theorem unmarked_merge_fieldTrees {L : Layout} (trees : L.Field → FaultTree) :
    (merge none (L.fieldTrees trees)).unmarked = merge none (L.fieldTrees trees) := by
  have hprior : FaultKey.prior ∉ Assoc.keys (merge none (L.fieldTrees trees)).children := by
    intro hmem
    obtain ⟨c, hc, hkey⟩ := List.mem_map.mp hmem
    obtain ⟨f, -, rfl⟩ := List.mem_map.mp (mem_children_merge hc).1
    cases hkey
  unfold unmarked
  rw [Assoc.erase_of_not_mem hprior, ← merge_children_merge none none]
  have hmerge := merge_fault?_children none (L.fieldTrees trees)
  rwa [fault?_merge] at hmerge

end FaultTree

/-! ### Fields that are taken over -/

namespace Shape

/-- A field that is taken over and finished again holds what it held. -/
theorem content_copied (s : Shape) (c : s.Content) (t : FaultTree) :
    s.content (s.copied c t) = c := by
  cases s with
  | required _ | optional _ | requiredPart _ | optionalPart _ => rfl
  | list _ | parts _ => exact List.append_nil c
  | namedParts _ => rfl

/-- A field that is taken over counts as set, with or without a value. -/
theorem isMissing_copied (s : Shape) (c : s.Content) (t : FaultTree) :
    s.isMissing (s.copied c t) = false := by
  cases s with
  | required _ | requiredPart _ => cases t <;> rfl
  | optional _ | optionalPart _ | list _ | parts _ | namedParts _ => rfl

/-- A finished field that is taken over has the same tree again. -/
theorem faults_copied_content (s : Shape) (slot : s.Slot) :
    s.faults (s.copied (s.content slot) (s.faults slot)) = s.faults slot := by
  cases s with
  | required _ | optional _ | requiredPart _ | optionalPart _ => rfl
  | list _ =>
      show merge slot.faults.fault? (slot.faults.children ++ []) = slot.faults
      rw [List.append_nil]
      exact merge_fault?_children _ _
  | parts _ =>
      show merge slot.partFaults.fault? (ListSlot.partFaultsFrom 0 (slot.values ++ [])) = _
      rw [List.append_nil, ListSlot.partFaults, fault?_merge]
      rfl
  | namedParts _ =>
      show merge slot.partFaults.fault? _ = _
      rw [MapSlot.partFaults, fault?_merge]
      rfl

end Shape

/-! ### Builders that take over everything -/

namespace Builder

variable {L : Layout}

/-- A build that goes on from a finished entity misses no field. -/
theorem build_attempts_ofRecord (r : Record L) (calls : List (Call L)) :
    ((ofRecord r).attempts calls).build = .ok ((ofRecord r).attempts calls).toRecord := by
  have hset : ∀ f, (L.shape f).isMissing (((ofRecord r).attempts calls).slot f) = false :=
    attempts_induction (P := fun f slot => (L.shape f).isMissing slot = false)
      (fun c _ slot _ => Shape.isMissing_applied _ c.setter slot)
      fun f => Shape.isMissing_copied _ _ _
  rw [build_of_not_isMissing hset, settled_eq_self hset]

/-- What is handed over without any call: every field as it was. -/
theorem build_ofRecord (r : Record L) : (ofRecord r).build = .ok (ofRecord r).toRecord :=
  build_attempts_ofRecord r []

/-- An entity that is copied through a builder holds in every field what it held. -/
theorem get_toRecord_ofRecord (r : Record L) : (ofRecord r).toRecord.get = r.get := by
  funext f
  exact Shape.content_copied _ _ _

/-- No builder gives the tree of a finished entity a fault of its own. -/
theorem selfFault?_toRecord (b : Builder L) : b.toRecord.faults.selfFault? = none :=
  selfFault?_merge _ _

end Builder

/-! ### Copies of entities that can be made -/

namespace AnyEntity

/-- Every field that is taken over has the same tree again, without marks the tree is made of the
trees of the fields, and only a mark gives the tree a fault of its own. -/
structure IsCopied (x : AnyEntity) : Prop where
  /-- The trees of fields are kept. -/
  faults_copied : ∀ f, (x.1.layout.shape f).faults ((Builder.ofRecord x.2).slot f) =
    x.faults.subtree (x.1.layout.name f)
  /-- Besides marks there is nothing but the trees of fields. -/
  unmarked_eq : x.faults.unmarked =
    merge none (x.1.layout.fieldTrees fun f => x.faults.subtree (x.1.layout.name f))
  /-- Without a fault of its own the entity is not marked. -/
  unmarked_of_none : x.faults.selfFault? = none → x.faults.unmarked = x.faults

/-- What a build hands over. -/
theorem IsCopied.built {t : EntityType} (b : Builder t.layout) : IsCopied ⟨t, b.toRecord⟩ := by
  have hfaults : b.toRecord.faults =
      merge none (t.layout.fieldTrees fun f => (t.layout.shape f).faults (b.slot f)) := rfl
  have hsubtree : ∀ f, b.toRecord.faults.subtree (t.layout.name f) =
      (t.layout.shape f).faults (b.slot f) := b.subtree_toRecord
  have hunmarked : b.toRecord.faults.unmarked = b.toRecord.faults := by
    rw [hfaults]
    exact unmarked_merge_fieldTrees _
  constructor
  · intro f
    show (t.layout.shape f).faults ((t.layout.shape f).copied _ _) = b.toRecord.faults.subtree _
    rw [hsubtree]
    exact Shape.faults_copied_content _ _
  · show b.toRecord.faults.unmarked =
      merge none (t.layout.fieldTrees fun f => b.toRecord.faults.subtree (t.layout.name f))
    simp only [hsubtree]
    rw [hunmarked, hfaults]
  · exact fun _ => hunmarked

/-- Marks do not change what a copy keeps. -/
theorem IsCopied.mark {x : AnyEntity} (h : x.IsCopied) (fault : Fault) :
    (x.mark fault).IsCopied := by
  have hfaults : (x.mark fault).faults = x.faults.inject fault := rfl
  have hsubtree : ∀ name, (x.mark fault).faults.subtree name = x.faults.subtree name :=
    fun name => subtree_inject fault x.faults name
  constructor
  · intro f
    show (x.1.layout.shape f).faults ((x.1.layout.shape f).copied (x.2.get f)
      ((x.mark fault).faults.subtree (x.1.layout.name f))) =
        (x.mark fault).faults.subtree (x.1.layout.name f)
    rw [hsubtree]
    exact h.faults_copied f
  · rw [hfaults, unmarked_inject, h.unmarked_eq]
    simp only [subtree_inject]
    rfl
  · intro hnone
    rw [hfaults, selfFault?_inject] at hnone
    cases hnone

end AnyEntity

/-- Everything that can be made can be copied field by field. -/
theorem Reachable.isCopied {x : AnyEntity} (h : Reachable x) : x.IsCopied := by
  induction h with
  | placeholder t =>
      rw [Record.placeholder_eq]
      exact AnyEntity.IsCopied.built _
  | built _ _ _ _ hbuild _ | rebuilt _ _ _ _ hbuild _ _ =>
      rw [Builder.eq_toRecord_settled_of_build hbuild]
      exact AnyEntity.IsCopied.built _
  | marked _ fault ih => exact ih.mark fault

/-- The copy of an entity that can be made: it always succeeds, every field has the same content and
the same tree as before, and of the entity's tree all but its marks is left. In particular nothing
is lost just if the entity has no fault of its own. -/
theorem copy_of_reachable {x : AnyEntity} (h : Reachable x) :
    ∃ r, (Builder.ofRecord x.2).build = .ok r ∧ r.get = x.2.get ∧
      (∀ f, r.faults.subtree (x.1.layout.name f) = x.faults.subtree (x.1.layout.name f)) ∧
      r.faults = x.faults.unmarked ∧ (r.faults = x.faults ↔ x.faults.selfFault? = none) := by
  have hcopied := h.isCopied
  have hfaults : (Builder.ofRecord x.2).toRecord.faults = x.faults.unmarked := by
    rw [hcopied.unmarked_eq, ← funext hcopied.faults_copied]
    rfl
  refine ⟨_, Builder.build_ofRecord x.2, Builder.get_toRecord_ofRecord x.2, fun f => ?_, hfaults,
    fun heq => ?_, fun hnone => ?_⟩
  · rw [Builder.subtree_toRecord]
    exact hcopied.faults_copied f
  · rw [← heq]
    exact Builder.selfFault?_toRecord _
  · rw [hfaults, hcopied.unmarked_of_none hnone]

/-- A node about which nothing is known, marked twice. -/
def markedNode : AnyEntity :=
  AnyEntity.mark ⟨.text "given up"⟩
    (AnyEntity.mark ⟨.text "unreadable"⟩ ⟨.node, Record.placeholder Node.layout⟩)

/-- The marked node can be made. -/
theorem reachable_markedNode : Reachable markedNode :=
  ((Reachable.placeholder .node).marked _).marked _

/-- The copy of that node misses the same fields. -/
theorem copy_of_reachable_markedNode :
    Reachable markedNode ∧ ∃ r : Record markedNode.1.layout,
      (Builder.ofRecord markedNode.2).build = .ok r ∧ r.get = markedNode.2.get ∧
      (∀ f, r.faults.subtree (markedNode.1.layout.name f) =
        markedNode.faults.subtree (markedNode.1.layout.name f)) ∧
      r.faults = markedNode.faults.unmarked ∧
      (r.faults = markedNode.faults ↔ markedNode.faults.selfFault? = none) :=
  ⟨reachable_markedNode, copy_of_reachable reachable_markedNode⟩

/-- Not every copy has the tree of what it was copied from: both marks of that node are lost. -/
theorem not_copy_faults_eq :
    ¬ ∀ x : AnyEntity, Reachable x → ∃ r, (Builder.ofRecord x.2).build = .ok r ∧
      r.get = x.2.get ∧ r.faults = x.faults := by
  intro hall
  obtain ⟨r, hbuild, -, hfaults⟩ := hall markedNode reachable_markedNode
  rw [Builder.build_ofRecord] at hbuild
  obtain rfl := Except.ok.inj hbuild
  have hself := Builder.selfFault?_toRecord (Builder.ofRecord markedNode.2)
  rw [hfaults] at hself
  cases hself

end Flowsheet
