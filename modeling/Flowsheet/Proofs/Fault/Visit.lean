import Flowsheet.Proofs.Fault.Canonical

/-!
# The order in which a strict build meets faults

A strict build ends at the first failed supply, and it looks for fields that were never given only
once all supplies are done. `FaultTree.visit` lists the faults of a tree in that order: at every
node its own fault, then its children in order, but the gaps, which are the leaves of fields that
are missing, after all other children. It is a rearrangement of `FaultTree.faults`
(`visit_perm_faults`).

What is first in a merged tree is decided by the first child that is no gap
(`first?_merge_of_prompt`) or, where all are gaps, by the first of them (`first?_merge_of_gap`).
-/

namespace Flowsheet

/-- Whether the fault is that of a required field that was not given. -/
def Fault.isMissing (fault : Fault) : Bool :=
  match fault.fieldError? with
  | some (.missing _) => true
  | _ => false

namespace FaultTree

/-- Whether a child is a field's leaf that says the field is missing. -/
def isGap : FaultKey → FaultTree → Bool
  | .field _, leaf fault => fault.isMissing
  | _, _ => false

mutual

/-- Every fault with its path, in the order in which a strict build meets them. -/
def visit : FaultTree → List (FaultPath × Fault)
  | empty => []
  | leaf fault => [([], fault)]
  | node own children =>
    own.toList.map (fun fault => ([], fault))
      ++ (visitBelow false children ++ visitBelow true children)

/-- The faults of the children that are gaps, or of those that are not. -/
def visitBelow (gaps : Bool) : List (FaultKey × FaultTree) → List (FaultPath × Fault)
  | [] => []
  | (key, t) :: rest =>
    (if isGap key t = gaps then (visit t).map fun e => (key :: e.1, e.2) else [])
      ++ visitBelow gaps rest

end

/-- The fault that a strict build meets first. -/
def first? (t : FaultTree) : Option (FaultPath × Fault) := t.visit.head?

/-- In the empty tree, no fault is met. -/
@[simp] theorem first?_empty : empty.first? = none := rfl

/-- In a leaf, its fault is met. -/
@[simp] theorem first?_leaf (fault : Fault) : (leaf fault).first? = some ([], fault) := rfl

/-- The fault at the root is met before all others. -/
@[simp] theorem first?_node_some (fault : Fault) (cs : List (FaultKey × FaultTree)) :
    (node (some fault) cs).first? = some ([], fault) := rfl

/-- Children are visited one after the other. -/
theorem visitBelow_append (gaps : Bool) (cs ds : List (FaultKey × FaultTree)) :
    visitBelow gaps (cs ++ ds) = visitBelow gaps cs ++ visitBelow gaps ds := by
  induction cs with
  | nil => rfl
  | cons c rest ih => rw [List.cons_append, visitBelow, visitBelow, ih, List.append_assoc]

/-! ### Every fault once -/

/-- Visiting rearranges the list of faults. -/
theorem visit_perm_faults (t : FaultTree) : t.visit.Perm t.faults := by
  induction t using FaultTree.induction with
  | empty => exact List.Perm.refl _
  | leaf fault => exact List.Perm.refl _
  | node own cs ih =>
      refine List.Perm.append_left _ ?_
      induction cs with
      | nil => exact List.Perm.refl _
      | cons c rest ihrest =>
          have hc : ((visit c.2).map fun e => (c.1 :: e.1, e.2)).Perm
              ((faults c.2).map fun e => (c.1 :: e.1, e.2)) :=
            (ih c List.mem_cons_self).map _
          have hrest : (visitBelow false rest ++ visitBelow true rest).Perm (faultsBelow rest) :=
            ihrest fun d hd => ih d (List.mem_cons_of_mem _ hd)
          rw [visitBelow, visitBelow, faultsBelow]
          cases isGap c.1 c.2 with
          | true =>
              -- the faults of a gap move behind those of all later children
              refine List.Perm.trans ?_ (hc.append hrest)
              simp only [Bool.true_eq_false, if_false, if_true, List.nil_append]
              rw [← List.append_assoc, ← List.append_assoc]
              exact List.perm_append_comm.append_right _
          | false =>
              simp only [Bool.false_eq_true, if_false, if_true, List.nil_append, List.append_assoc]
              exact hc.append hrest

/-- No fault is met just if none is listed: a visit only orders them in its own way. -/
theorem first?_eq_none_iff {t : FaultTree} : t.first? = none ↔ t.faults = [] := by
  unfold first?
  rw [List.head?_eq_none_iff]
  constructor
  · intro hnil
    exact (hnil ▸ (visit_perm_faults t).symm).eq_nil
  · intro hnil
    exact (hnil ▸ visit_perm_faults t).eq_nil

/-! ### The first fault of a merged tree -/

/-- Empty trees do not show in a visit. -/
theorem visitBelow_filter (gaps : Bool) (cs : List (FaultKey × FaultTree)) :
    visitBelow gaps (cs.filter fun c => c.2.hasFaults) = visitBelow gaps cs := by
  induction cs with
  | nil => rfl
  | cons c rest ih =>
      obtain ⟨key, t⟩ := c
      cases t with
      | empty =>
          rw [List.filter_cons_of_neg (by simp), ih, visitBelow]
          split <;> rfl
      | leaf fault => rw [List.filter_cons_of_pos rfl, visitBelow, visitBelow, ih]
      | node own ds => rw [List.filter_cons_of_pos rfl, visitBelow, visitBelow, ih]

/-- A merged tree without a fault at its root is visited twice: for what is no gap, and for the
gaps. Empty trees make no difference. -/
theorem visit_merge {cs : List (FaultKey × FaultTree)} (h : (Assoc.keys cs).Nodup) :
    (merge none cs).visit = visitBelow false cs ++ visitBelow true cs := by
  rw [merge_of_nodup h, ← visitBelow_filter false cs, ← visitBelow_filter true cs]
  cases cs.filter fun c => c.2.hasFaults <;> rfl

/-- Empty trees and trees of the other kind are passed over. -/
theorem visitBelow_eq_nil {gaps : Bool} {cs : List (FaultKey × FaultTree)}
    (h : ∀ c ∈ cs, c.2 = empty ∨ isGap c.1 c.2 ≠ gaps) : visitBelow gaps cs = [] := by
  induction cs with
  | nil => rfl
  | cons c rest ih =>
      rw [visitBelow, ih fun d hd => h d (List.mem_cons_of_mem _ hd), List.append_nil]
      rcases h c List.mem_cons_self with hempty | hgap
      · rw [hempty]
        split <;> rfl
      · rw [if_neg hgap]

/-- The first child that is neither empty nor a gap decides. -/
theorem first?_merge_of_prompt {pre post : List (FaultKey × FaultTree)} {key : FaultKey}
    {t : FaultTree} (hkeys : (Assoc.keys (pre ++ (key, t) :: post)).Nodup)
    (hpre : ∀ c ∈ pre, c.2 = empty ∨ isGap c.1 c.2 = true) (hgap : isGap key t = false)
    {path : FaultPath} {fault : Fault} (ht : t.first? = some (path, fault)) :
    (merge none (pre ++ (key, t) :: post)).first? = some (key :: path, fault) := by
  obtain ⟨rest, hvisit⟩ := List.head?_eq_some_iff.mp ht
  have hnil : visitBelow false pre = [] :=
    visitBelow_eq_nil fun c hc => (hpre c hc).imp_right fun h => by simp [h]
  unfold first?
  rw [visit_merge hkeys, visitBelow_append, hnil, visitBelow, if_pos hgap, hvisit]
  rfl

/-- A failed supply comes before a missing field that stands earlier in the tree. -/
example :
    (merge none [(.field "id", leaf (Fault.missing "id")),
      (.field "name", leaf ⟨.text "no name"⟩)]).first? =
        some ([.field "name"], ⟨.text "no name"⟩) := rfl

/-- Where all children are empty or gaps, the first gap decides. -/
theorem first?_merge_of_gap {pre post : List (FaultKey × FaultTree)} {key : FaultKey}
    {fault : Fault} (hkeys : (Assoc.keys (pre ++ (key, leaf fault) :: post)).Nodup)
    (hall : ∀ c ∈ pre ++ (key, leaf fault) :: post, c.2 = empty ∨ isGap c.1 c.2 = true)
    (hpre : ∀ c ∈ pre, c.2 = empty) (hgap : isGap key (leaf fault) = true) :
    (merge none (pre ++ (key, leaf fault) :: post)).first? = some ([key], fault) := by
  have hprompt : visitBelow false (pre ++ (key, leaf fault) :: post) = [] :=
    visitBelow_eq_nil fun c hc => (hall c hc).imp_right fun h => by simp [h]
  have hnil : visitBelow true pre = [] := visitBelow_eq_nil fun c hc => Or.inl (hpre c hc)
  unfold first?
  rw [visit_merge hkeys, hprompt, visitBelow_append, hnil, visitBelow, if_pos hgap]
  rfl

end FaultTree

end Flowsheet
