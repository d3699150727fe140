import Flowsheet.Proofs.Fault.Composed
import Mathlib.Data.List.Nodup

/-!
# Faults that arrive one after the other

A tree that receives a fault keeps the one that it had: it moves one step down, below `prior`, and
takes its own history with it. After any number of faults the last stands at the root, each earlier
one a step further back, and behind all of them what the tree had at its root before; the other
children are as they were, and no fault is lost (`injectAll_keepsAll`).

What stands below `prior` after one more fault is `past`. It has the fault and the history of the
tree that received it (`exists_past`), so a second fault moves the whole chain by one step
(`at?_prior_inject`) and the induction over the faults goes through.
-/

namespace Flowsheet.FaultTree

/-- The tree after some faults have arrived in order. -/
def injectAll (t : FaultTree) (fs : List Fault) : FaultTree :=
  fs.foldl (fun u fault => u.inject fault) t

/-- The last of some faults is injected last. -/
theorem injectAll_concat (t : FaultTree) (fs : List Fault) (fault : Fault) :
    t.injectAll (fs ++ [fault]) = (t.injectAll fs).inject fault :=
  List.foldl_append

/-- Faults that are injected keep a tree canonical. -/
theorem canonical_injectAll {t : FaultTree} (h : Canonical t) (fs : List Fault) :
    Canonical (t.injectAll fs) := by
  induction fs generalizing t with
  | nil => exact h
  | cons fault rest ih => exact ih (canonical_inject h fault)

/-! ### The chain of earlier faults -/

/-- What stands below `prior` after one more fault: the root's fault with the history that it has,
or that history alone where the root has no fault. -/
def past (t : FaultTree) : Option FaultTree :=
  match t.fault? with
  | some own => some (history own ((t.child? .prior).getD empty))
  | none => t.child? .prior

/-- Below `prior` stands the history of the root before the injection. -/
theorem child?_prior_inject (fault : Fault) (t : FaultTree) :
    (t.inject fault).child? .prior = t.past := by
  rcases t with _ | old | ⟨_ | old, cs⟩
  · rfl
  · rfl
  · rfl
  · rw [inject, child?, children_ofParts, Assoc.get?_insert, if_pos rfl]
    rfl

/-- The fault that was injected last is the one at the root. -/
theorem fault?_inject (fault : Fault) (t : FaultTree) : (t.inject fault).fault? = some fault := by
  rcases t with _ | old | ⟨_ | old, cs⟩ <;> rfl

/-- A history begins with its own fault. -/
theorem fault?_history (own : Fault) (earlier : FaultTree) :
    (history own earlier).fault? = some own := by
  unfold history
  split
  · rfl
  · exact fault?_merge _ _

/-- A fault brings its history with it, if it has one. -/
theorem child?_prior_history (own : Fault) {earlier : Option FaultTree}
    (h : earlier ≠ some empty) : (history own (earlier.getD empty)).child? .prior = earlier := by
  cases earlier with
  | none => rfl
  | some u =>
      have hu : u ≠ empty := fun heq => h (congrArg some heq)
      have hfaults : u.hasFaults = true := hasFaults_iff.mpr hu
      have hkeys : (Assoc.keys [(FaultKey.prior, u)]).Nodup := List.nodup_singleton _
      have hempty : u.isEmpty = false := by simpa [hasFaults] using hfaults
      rw [Option.getD_some, history, hempty, if_neg Bool.false_ne_true, child?,
        children_merge_of_nodup _ hkeys, List.filter_singleton, hfaults]
      rfl

/-- What moves below `prior` has the fault and the history of the tree. -/
theorem exists_past {t : FaultTree} (h : Canonical t) {own : Fault} (hown : t.fault? = some own) :
    ∃ u, t.past = some u ∧ u.fault? = some own ∧ u.child? .prior = t.child? .prior := by
  refine ⟨history own ((t.child? .prior).getD empty), ?_, fault?_history _ _, ?_⟩
  · rw [past, hown]
  · exact child?_prior_history own (h.child?_ne_empty .prior)

/-- A fault that arrives moves the history of an earlier one by a step. -/
theorem at?_prior_inject {t : FaultTree} (h : Canonical t) {own : Fault}
    (hown : t.fault? = some own) (fault : Fault) (k : Nat) :
    (t.inject fault).at? (List.replicate (k + 2) .prior) =
      t.at? (List.replicate (k + 1) .prior) := by
  obtain ⟨u, hpast, -, hchild⟩ := exists_past h hown
  rw [List.replicate_succ, at?_cons, child?_prior_inject, hpast, Option.bind_some,
    List.replicate_succ, at?_cons, at?_cons, hchild]

/-- In particular the faults of the history move by a step. -/
theorem fault?_at?_prior_inject {t : FaultTree} (h : Canonical t) {own : Fault}
    (hown : t.fault? = some own) (fault : Fault) (k : Nat) :
    ((t.inject fault).at? (List.replicate (k + 1) .prior)).bind fault? =
      (t.at? (List.replicate k .prior)).bind fault? := by
  cases k with
  | zero =>
      obtain ⟨u, hpast, hfault, -⟩ := exists_past h hown
      rw [List.replicate_succ, List.replicate_zero, at?_cons, child?_prior_inject, hpast,
        Option.bind_some, at?_nil, at?_nil, Option.bind_some, Option.bind_some, hfault, hown]
  | succ k => rw [at?_prior_inject h hown]

/-- The faults that arrived stand in the chain, the last of them first. -/
theorem fault?_at?_injectAll {t : FaultTree} (h : Canonical t) (fs : List Fault) {k : Nat}
    (hk : k < fs.length) :
    ((t.injectAll fs).at? (List.replicate k .prior)).bind fault? = fs.reverse[k]? := by
  induction fs using List.reverseRecOn generalizing k with
  | nil => exact absurd hk (Nat.not_lt_zero k)
  | append_singleton fs fault ih =>
      rw [injectAll_concat, List.reverse_concat]
      cases k with
      | zero => exact fault?_inject fault _
      | succ k =>
          have hlt : k < fs.length := by simpa using hk
          obtain ⟨own, hown⟩ : ∃ own, fs.reverse[0]? = some own := by
            rw [← List.length_reverse] at hlt
            exact ⟨_, List.getElem?_eq_getElem (Nat.zero_lt_of_lt hlt)⟩
          have hroot : (t.injectAll fs).fault? = some own :=
            (ih (Nat.zero_lt_of_lt hlt)).trans hown
          rw [fault?_at?_prior_inject (canonical_injectAll h fs) hroot, ih hlt,
            List.getElem?_cons_succ]

/-- Behind the faults that arrived stands what the first of them moved there. -/
theorem at?_injectAll {t : FaultTree} (h : Canonical t) {fs : List Fault} (hfs : fs ≠ []) :
    (t.injectAll fs).at? (List.replicate fs.length .prior) = t.past := by
  induction fs using List.reverseRecOn with
  | nil => exact absurd rfl hfs
  | append_singleton fs fault ih =>
      rw [injectAll_concat]
      rcases List.eq_nil_or_concat' fs with rfl | ⟨others, last, rfl⟩
      · show ((t.inject fault).child? .prior).bind some = t.past
        rw [child?_prior_inject, Option.bind_fun_some]
      · have hroot : (t.injectAll (others ++ [last])).fault? = some last := by
          rw [injectAll_concat]
          exact fault?_inject last _
        have hlength : (others ++ [last]).length = others.length + 1 := List.length_append
        rw [List.length_append, List.length_singleton, hlength,
          at?_prior_inject (canonical_injectAll h _) hroot, ← hlength]
        exact ih (by simp)

/-! ### The faults without their places -/

/-- The faults below a node are those of its children, in order. -/
theorem recorded_faultsBelow (cs : List (FaultKey × FaultTree)) :
    (faultsBelow cs).map (·.2) = cs.flatMap fun c => c.2.faults.map (·.2) := by
  induction cs with
  | nil => rfl
  | cons c rest ih =>
      rw [faultsBelow, List.map_append, List.map_map, ih]
      rfl

/-- A history lists its own fault before the earlier ones. -/
theorem recorded_history (own : Fault) (earlier : FaultTree) :
    (history own earlier).faults.map (·.2) = own :: earlier.faults.map (·.2) := by
  unfold history
  split
  · rename_i hempty
    rw [isEmpty_iff.mp hempty]
    rfl
  · have hkeys : (Assoc.keys [(FaultKey.prior, earlier)]).Nodup := List.nodup_singleton _
    rw [faults_merge hkeys, List.map_append, recorded_faultsBelow, List.flatMap_singleton]
    rfl

/-- One more fault is recorded, and no other is lost. -/
theorem recorded_inject {t : FaultTree} (h : Canonical t) (fault : Fault) :
    ((t.inject fault).faults.map (·.2)).Perm (fault :: t.faults.map (·.2)) := by
  rcases t with _ | old | ⟨_ | old, cs⟩
  · exact List.Perm.refl _
  · exact List.Perm.refl _
  · rw [inject, faults_ofParts]
    exact List.Perm.refl _
  · -- the root's fault and its history come last now, other children keep their order
    have hprior : FaultKey.prior ∉ Assoc.keys (Assoc.erase .prior cs) := by
      rw [← Assoc.get?_eq_none_iff, Assoc.get?_erase, if_pos rfl]
    have hcs : (((Assoc.get? .prior cs).getD empty).faults.map (·.2) ++
        (Assoc.erase .prior cs).flatMap fun c => c.2.faults.map (·.2)).Perm
          (cs.flatMap fun c => c.2.faults.map (·.2)) := by
      cases hget : Assoc.get? .prior cs with
      | none =>
          rw [Assoc.erase_of_not_mem (Assoc.get?_eq_none_iff.mp hget)]
          exact List.Perm.refl _
      | some u =>
          have hperm := Assoc.perm_cons_erase h.2.1 hget
          exact (hperm.flatMap_right fun c => c.2.faults.map (·.2)).symm
    have hown : (node (some old) cs).faults.map (·.2) =
        old :: cs.flatMap fun c => c.2.faults.map (·.2) := by
      rw [faults, List.map_append, recorded_faultsBelow]
      rfl
    have hresult : ((node (some old) cs).inject fault).faults.map (·.2) =
        fault :: (((Assoc.erase .prior cs).flatMap fun c => c.2.faults.map (·.2)) ++
          old :: ((Assoc.get? .prior cs).getD empty).faults.map (·.2)) := by
      rw [inject, Assoc.insert_of_not_mem hprior, faults_ofParts, List.map_append,
        recorded_faultsBelow, List.flatMap_append, List.flatMap_singleton, recorded_history]
      rfl
    rw [hown, hresult]
    exact List.Perm.cons fault (List.perm_append_comm.trans (List.Perm.cons old hcs))

/-! ### All together -/

/-- What is left of a tree, and of faults that arrived after each other, in the tree that they lead
to. -/
structure KeepsAll (t : FaultTree) (fs : List Fault) (r : FaultTree) : Prop where
  /-- The last fault stands at the root. -/
  selfFault?_eq : r.selfFault? = fs.getLast?
  /-- Each other one stands as many steps back as faults arrived after it. -/
  fault?_back : ∀ k, 1 ≤ k → k < fs.length →
    (r.at? (List.replicate k .prior)).bind fault? = fs[fs.length - 1 - k]?
  /-- Behind them stands the fault that the root had, with its history. -/
  back_of_fault : ∀ own, t.fault? = some own → ∃ u,
    r.at? (List.replicate fs.length .prior) = some u ∧ u.fault? = some own ∧
      u.child? .prior = t.child? .prior
  /-- Where the root had no fault, the history stands there that the tree had, if any. -/
  back_of_none : t.fault? = none → r.at? (List.replicate fs.length .prior) = t.child? .prior
  /-- The trees of other children are the same. -/
  child?_eq : ∀ key, key ≠ .prior → r.child? key = t.child? key
  /-- The other children stand in the same order. -/
  children_eq : Assoc.erase .prior r.children = Assoc.erase .prior t.children
  /-- The same faults are recorded and those that arrived, each as often. -/
  recorded_perm : (r.faults.map (·.2)).Perm (t.faults.map (·.2) ++ fs)
  /-- Each fault that arrived counts once. -/
  len_eq : r.len = t.len + fs.length

/-- Of several faults, the last one is at the root. -/
theorem selfFault?_injectAll (t : FaultTree) {fs : List Fault} (hfs : fs ≠ []) :
    (t.injectAll fs).selfFault? = fs.getLast? := by
  obtain ⟨others, last, rfl⟩ := (List.eq_nil_or_concat' fs).resolve_left hfs
  rw [injectAll_concat, selfFault?_inject, List.getLast?_concat]

/-- Injected faults leave the children other than `prior`, and their order, as they were. -/
theorem erase_children_injectAll (t : FaultTree) (fs : List Fault) :
    Assoc.erase .prior (t.injectAll fs).children = Assoc.erase .prior t.children := by
  induction fs generalizing t with
  | nil => rfl
  | cons fault rest ih => exact (ih (t.inject fault)).trans (erase_children_inject fault t)

/-- Injected faults change no child but `prior`. -/
theorem child?_injectAll_of_ne (t : FaultTree) (fs : List Fault) {key : FaultKey}
    (h : key ≠ .prior) : (t.injectAll fs).child? key = t.child? key := by
  have herase := congrArg (Assoc.get? key) (erase_children_injectAll t fs)
  rwa [Assoc.get?_erase, Assoc.get?_erase, if_neg h.symm, if_neg h.symm] at herase

/-- No fault gets lost, and none comes up but those that were injected. -/
theorem recorded_injectAll {t : FaultTree} (h : Canonical t) (fs : List Fault) :
    ((t.injectAll fs).faults.map (·.2)).Perm (t.faults.map (·.2) ++ fs) := by
  induction fs generalizing t with
  | nil => exact List.Perm.of_eq (List.append_nil _).symm
  | cons fault rest ih =>
      refine (ih (canonical_inject h fault)).trans ?_
      exact ((recorded_inject h fault).append_right rest).trans List.perm_middle.symm

/-- However a tree was composed, faults that arrive one after the other lose nothing of it and
nothing of each other. -/
theorem injectAll_keepsAll {t : FaultTree} (h : Composed t) {fs : List Fault} (hfs : fs ≠ []) :
    KeepsAll t fs (t.injectAll fs) where
  selfFault?_eq := selfFault?_injectAll t hfs
  fault?_back k _ hk := by
    rw [fault?_at?_injectAll h.canonical fs hk, List.getElem?_reverse hk]
  back_of_fault own hown := by
    rw [at?_injectAll h.canonical hfs]
    exact exists_past h.canonical hown
  back_of_none hnone := by
    rw [at?_injectAll h.canonical hfs, past, hnone]
  child?_eq _ hkey := child?_injectAll_of_ne t fs hkey
  children_eq := erase_children_injectAll t fs
  recorded_perm := recorded_injectAll h.canonical fs
  len_eq := by
    have hlength := (recorded_injectAll h.canonical fs).length_eq
    rwa [List.length_map, length_faults, List.length_append, List.length_map, length_faults]
      at hlength

/-- A tree that was marked once and has a faulty field. -/
def markedTree : FaultTree :=
  (merge none [(.field "id", leaf (Fault.missing "id"))]).inject ⟨.text "unreadable"⟩

/-- The marked tree can be composed. -/
theorem composed_markedTree : Composed markedTree := by
  refine (Composed.merge none fun c hc => ?_).inject _
  rw [List.mem_singleton.mp hc]
  exact Composed.leaf _

/-- Three more faults on top of it. -/
theorem injectAll_keepsAll_markedTree :
    Composed markedTree ∧
      KeepsAll markedTree [⟨.text "first"⟩, ⟨.text "second"⟩, ⟨.text "third"⟩]
        (markedTree.injectAll [⟨.text "first"⟩, ⟨.text "second"⟩, ⟨.text "third"⟩]) :=
  ⟨composed_markedTree, injectAll_keepsAll composed_markedTree (List.cons_ne_nil _ _)⟩

end Flowsheet.FaultTree
