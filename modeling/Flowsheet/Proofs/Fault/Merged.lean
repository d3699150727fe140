import Flowsheet.Proofs.Fault.Composed
import Mathlib.Algebra.GroupWithZero.Nat

/-!
# What is merged

`merge` takes any list of trees under any keys. Empty trees leave no trace in it, and of the others
the last that is given for a key counts (`lastGiven?`), in the place where the key is first given
(`firstGiven`). Both are read off the list alone, and they say all there is to say about the merged
tree: its children, their order and the number of its faults (`merge_given`). Merging the parts of a
tree that is no leaf gives the tree back (`Canonical.merge_parts`).
-/

namespace Flowsheet

/-- With distinct keys the values are what is read at the keys. -/
theorem Assoc.map_value_eq {κ α β : Type} [DecidableEq κ] {es : List (κ × α)}
    (h : (keys es).Nodup) (f : α → β) (default : β) :
    es.map (fun e => f e.2) = (keys es).map fun k => ((get? k es).map f).getD default := by
  rw [keys, List.map_map]
  refine List.map_congr_left fun e he => ?_
  rw [Function.comp_apply, (get?_eq_some_iff h).mpr he]
  rfl

namespace FaultTree

/-! ### What counts among the given trees -/

/-- The trees that are not empty, with their keys. -/
def given (cs : List (FaultKey × FaultTree)) : List (FaultKey × FaultTree) :=
  cs.filter fun c => c.2.hasFaults

/-- The tree that counts for a key: the last that is not empty. -/
def lastGiven? (key : FaultKey) (cs : List (FaultKey × FaultTree)) : Option FaultTree :=
  (((given cs).filter fun c => c.1 = key).getLast?).map (·.2)

/-- The keys under which some tree is not empty, in the order in which they first are. -/
def firstGiven (cs : List (FaultKey × FaultTree)) : List FaultKey :=
  (Assoc.keys (given cs)).eraseDups

/-- The children are the given trees, written one after the other under their keys. -/
theorem children_merge (own : Option Fault) (cs : List (FaultKey × FaultTree)) :
    (merge own cs).children = Assoc.ofList (given cs) := children_ofParts _ _

/-- The child under a key is the last tree that was given for it and is not empty. -/
theorem child?_merge_eq_lastGiven? (own : Option Fault) (cs : List (FaultKey × FaultTree))
    (key : FaultKey) : (merge own cs).child? key = lastGiven? key cs := by
  rw [child?, children_merge, Assoc.get?_ofList, Assoc.get?_reverse]
  rfl

/-- The children come in the order in which their keys were first given. -/
theorem keys_children_merge (own : Option Fault) (cs : List (FaultKey × FaultTree)) :
    Assoc.keys (merge own cs).children = firstGiven cs := by
  rw [children_merge, Assoc.keys_ofList]
  rfl

/-- No key is first given twice. -/
theorem nodup_firstGiven (cs : List (FaultKey × FaultTree)) : (firstGiven cs).Nodup := by
  rw [← keys_children_merge none, children_merge]
  exact Assoc.nodup_keys_ofList _

/-! ### The number of faults -/

/-- The faults of some children are counted child by child. -/
theorem lenBelow_eq_sum (cs : List (FaultKey × FaultTree)) :
    lenBelow cs = (cs.map fun c => c.2.len).sum := by
  induction cs with
  | nil => rfl
  | cons c rest ih => rw [lenBelow, ih, List.map_cons, List.sum_cons]

/-- The fault at the root counts besides those of the children. -/
theorem len_ofParts (own : Option Fault) (cs : List (FaultKey × FaultTree)) :
    (ofParts own cs).len = own.toList.length + lenBelow cs := by
  cases own <;> cases cs <;> rfl

/-- Each key adds the faults of the tree that counts for it. -/
theorem len_merge (own : Option Fault) (cs : List (FaultKey × FaultTree)) :
    (merge own cs).len = own.toList.length +
      ((firstGiven cs).map fun key => ((lastGiven? key cs).map len).getD 0).sum := by
  have hkeys : (Assoc.keys (Assoc.ofList (given cs))).Nodup := Assoc.nodup_keys_ofList _
  have hsum : (Assoc.ofList (given cs)).map (fun c => c.2.len) =
      (firstGiven cs).map fun key => ((lastGiven? key cs).map len).getD 0 := by
    rw [Assoc.map_value_eq hkeys len 0, Assoc.keys_ofList]
    refine List.map_congr_left fun key _ => ?_
    rw [← child?_merge_eq_lastGiven? own, child?, children_merge]
  rw [merge, len_ofParts, lenBelow_eq_sum, ← hsum]
  rfl

/-! ### Merging parts again -/

/-- A canonical tree that is no leaf is what its own parts merge to. -/
theorem Canonical.merge_parts {t : FaultTree} (h : Canonical t) (hleaf : t.leafFault? = none) :
    FaultTree.merge t.fault? t.children = t := by
  cases t with
  | empty => rfl
  | leaf fault => cases hleaf
  | node own cs =>
      obtain ⟨hparts, hkeys, hbelow⟩ := h
      have hfilter : (cs.filter fun c => c.2.hasFaults) = cs :=
        List.filter_eq_self.mpr fun c hc => hasFaults_iff.mpr (canonicalBelow_iff.mp hbelow c hc).1
      show FaultTree.merge own cs = _
      rw [merge_of_nodup hkeys, hfilter, ofParts_eq_node hparts]

/-! ### All together -/

/-- Of any list of trees, under keys that may be repeated: the merged tree has the given fault of
its own, under each key the last tree that is not empty, in the order in which the keys first have
such a tree, and all their faults. Merging the parts of a tree that was composed in any way, if it
is no leaf, gives that tree. -/
theorem merge_given (own : Option Fault) (cs : List (FaultKey × FaultTree)) :
    (merge own cs).selfFault? = own ∧ (merge own cs).leafFault? = none ∧
    (∀ key, (merge own cs).child? key = lastGiven? key cs) ∧
    Assoc.keys (merge own cs).children = firstGiven cs ∧
    (Assoc.keys (merge own cs).children).Nodup ∧
    (merge own cs).len = own.toList.length +
      ((firstGiven cs).map fun key => ((lastGiven? key cs).map len).getD 0).sum ∧
    ∀ t, Composed t → t.leafFault? = none → merge t.fault? t.children = t := by
  refine ⟨selfFault?_merge own cs, leafFault?_merge own cs, child?_merge_eq_lastGiven? own cs,
    keys_children_merge own cs, ?_, len_merge own cs, fun t ht => ht.canonical.merge_parts⟩
  rw [keys_children_merge]
  exact nodup_firstGiven cs

/-- Two fields whose trees are given again: an empty tree comes first for the one and last for the
other. -/
def regiven : List (FaultKey × FaultTree) :=
  [(.field "id", empty), (.field "name", leaf ⟨.text "no name"⟩),
    (.field "id", leaf (Fault.missing "id")),
    (.field "name", (leaf ⟨.text "unreadable"⟩).inject ⟨.text "given up"⟩), (.field "name", empty)]

/-- The name comes first and counts with its second tree, which has two faults. -/
theorem merge_given_regiven :
    (merge none regiven).child? (.field "name") =
        some ((leaf ⟨.text "unreadable"⟩).inject ⟨.text "given up"⟩) ∧
      Assoc.keys (merge none regiven).children = [.field "name", .field "id"] ∧
      (merge none regiven).len = 3 ∧
      Composed ((leaf ⟨.text "unreadable"⟩).inject ⟨.text "given up"⟩) ∧
      ((leaf ⟨.text "unreadable"⟩).inject ⟨.text "given up"⟩).leafFault? = none ∧
      merge (some ⟨.text "given up"⟩) [(.prior, leaf ⟨.text "unreadable"⟩)] =
        (leaf ⟨.text "unreadable"⟩).inject ⟨.text "given up"⟩ := by
  obtain ⟨-, -, hchild, hkeys, -, hlen, hparts⟩ := merge_given none regiven
  have hcomposed : Composed ((leaf ⟨.text "unreadable"⟩).inject ⟨.text "given up"⟩) :=
    (Composed.leaf _).inject _
  exact ⟨hchild (.field "name"), hkeys, hlen, hcomposed, rfl, hparts _ hcomposed rfl⟩

end FaultTree

end Flowsheet
