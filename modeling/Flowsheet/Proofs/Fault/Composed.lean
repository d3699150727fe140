import Flowsheet.Proofs.Fault.Canonical

/-!
# Trees that can be composed

`Composed` trees are those that come out of empty trees and leaves by merging, injecting, listing
missing fields, and going down to children, in any order and number. Each of these steps makes
canonical trees of canonical ones, so composed trees are canonical (`Composed.canonical`), and so is
every tree that stands somewhere below one (`Canonical.within`).

In a canonical tree a look at the outermost constructor says whether there is any fault at all
(`Canonical.isEmpty_iff_faults`, `Canonical.isEmpty_iff_len`).
-/

namespace Flowsheet.FaultTree

/-! ### Ways to compose trees -/

/-- Trees that are made in any number of steps. -/
inductive Composed : FaultTree → Prop where
  /-- No fault. -/
  | empty : Composed .empty
  /-- One fault. -/
  | leaf (fault : Fault) : Composed (.leaf fault)
  /-- Composed trees under any keys, which may be repeated, with or without a fault above them. -/
  | merge (own : Option Fault) {cs : List (FaultKey × FaultTree)} (h : ∀ c ∈ cs, Composed c.2) :
    Composed (.merge own cs)
  /-- One more fault at the root. -/
  | inject {t : FaultTree} (h : Composed t) (fault : Fault) : Composed (t.inject fault)
  /-- Fields that are missing. -/
  | missing (names : List String) : Composed (.missing names)
  /-- A child. -/
  | child {t u : FaultTree} {key : FaultKey} (h : Composed t) (hu : t.child? key = some u) :
    Composed u
  /-- The tree at the end of a path. -/
  | atPath {t u : FaultTree} {path : FaultPath} (h : Composed t) (hu : t.at? path = some u) :
    Composed u
  /-- The tree of a field, empty if the field has none. -/
  | subtree {t : FaultTree} (h : Composed t) (name : String) : Composed (t.subtree name)

/-- A tree is another one or stands somewhere below it. -/
inductive Within : FaultTree → FaultTree → Prop where
  /-- The tree itself. -/
  | self (t : FaultTree) : Within t t
  /-- Within a child. -/
  | inChild {t : FaultTree} {own : Option Fault} {cs : List (FaultKey × FaultTree)}
      {c : FaultKey × FaultTree} (hc : c ∈ cs) (h : Within t c.2) : Within t (.node own cs)

/-- Two composed trees can be given to a merge. -/
theorem Composed.forall_mem_pair {k j : FaultKey} {t u : FaultTree} (ht : Composed t)
    (hu : Composed u) : ∀ c ∈ [(k, t), (j, u)], Composed c.2 :=
  List.forall_mem_cons.mpr ⟨ht, List.forall_mem_singleton.mpr hu⟩

/-- Two trees side by side. -/
theorem Composed.pair {own : Option Fault} {k j : FaultKey} {t u : FaultTree} (ht : Composed t)
    (hu : Composed u) : Composed (.merge own [(k, t), (j, u)]) :=
  .merge own (ht.forall_mem_pair hu)

/-! ### Parts of canonical trees -/

/-- No two children of a canonical tree stand under one key. -/
theorem Canonical.nodup_keys {t : FaultTree} (h : Canonical t) : (Assoc.keys t.children).Nodup := by
  cases t with
  | empty | leaf _ => exact List.nodup_nil
  | node own cs => exact h.2.1

/-- The children of a canonical tree are canonical. -/
theorem Canonical.of_mem_children {t : FaultTree} (h : Canonical t) {c : FaultKey × FaultTree}
    (hc : c ∈ t.children) : Canonical c.2 := by
  cases t with
  | empty | leaf _ => cases hc
  | node own cs => exact (canonicalBelow_iff.mp h.2.2 c hc).2

/-- What a lookup by key gives below a canonical tree is canonical. -/
theorem Canonical.child? {t u : FaultTree} (h : Canonical t) {key : FaultKey}
    (hu : t.child? key = some u) : Canonical u :=
  h.of_mem_children (Assoc.mem_of_get?_eq_some hu)

/-- No child of a canonical tree is empty. -/
theorem Canonical.child?_ne_empty {t : FaultTree} (h : Canonical t) (key : FaultKey) :
    t.child? key ≠ some empty := by
  intro heq
  cases t with
  | empty | leaf _ => cases heq
  | node own cs =>
      exact (canonicalBelow_iff.mp h.2.2 _ (Assoc.mem_of_get?_eq_some heq)).1 rfl

/-- None of its children is empty. -/
theorem Canonical.filter_child? {t : FaultTree} (h : Canonical t) (key : FaultKey) :
    ((t.child? key).filter fun u => u.hasFaults) = t.child? key := by
  cases hchild : t.child? key with
  | none => rfl
  | some u =>
      have hne : u ≠ .empty := fun heq => h.child?_ne_empty key (heq ▸ hchild)
      rw [Option.filter_some, if_pos (hasFaults_iff.mpr hne)]

/-- Its children are what they merge to. -/
theorem Canonical.child?_merge_children {t : FaultTree} (h : Canonical t) (own : Option Fault)
    (key : FaultKey) : (FaultTree.merge own t.children).child? key = t.child? key := by
  rw [child?_merge_of_nodup own h.nodup_keys]
  exact h.filter_child? key

/-- What stands at a path in a canonical tree is canonical. -/
theorem Canonical.at? {t u : FaultTree} (h : Canonical t) {path : FaultPath}
    (hu : t.at? path = some u) : Canonical u := by
  induction path generalizing t with
  | nil =>
      rw [at?_nil] at hu
      exact Option.some.inj hu ▸ h
  | cons key rest ih =>
      rw [at?_cons] at hu
      obtain ⟨v, hv, hrest⟩ := Option.bind_eq_some_iff.mp hu
      exact ih (h.child? hv) hrest

/-- The tree of a field in a canonical tree is canonical, be it empty. -/
theorem Canonical.subtree {t : FaultTree} (h : Canonical t) (name : String) :
    Canonical (t.subtree name) := by
  unfold FaultTree.subtree
  cases hfield : t.field? name with
  | none => trivial
  | some u => exact h.child? hfield

/-- Canonical form reaches down to every depth. -/
theorem Canonical.within {t u : FaultTree} (h : Canonical t) (hu : Within u t) : Canonical u := by
  induction hu with
  | self => exact h
  | inChild hc _ ih => exact ih (h.of_mem_children hc)

/-- Every way to compose trees keeps them canonical. -/
theorem Composed.canonical {t : FaultTree} (h : Composed t) : Canonical t := by
  induction h with
  | empty | leaf => trivial
  | merge own _ ih => exact canonical_merge ih
  | inject _ fault ih => exact canonical_inject ih fault
  | missing names =>
      refine canonical_merge fun c hc => ?_
      obtain ⟨name, -, rfl⟩ := List.mem_map.mp hc
      trivial
  | child _ hu ih => exact ih.child? hu
  | atPath _ hu ih => exact ih.at? hu
  | subtree _ name ih => exact ih.subtree name

/-- In particular its children can be composed. -/
theorem Composed.of_mem_children {t : FaultTree} (h : Composed t) {c : FaultKey × FaultTree}
    (hc : c ∈ t.children) : Composed c.2 :=
  h.child ((Assoc.get?_eq_some_iff h.canonical.nodup_keys).mpr hc)

/-! ### Empty trees -/

/-- The test for the empty tree holds of that tree alone. -/
theorem isEmpty_iff {t : FaultTree} : t.isEmpty = true ↔ t = empty := by
  cases t <;> simp [isEmpty]

/-- Only the empty tree equals the empty tree. -/
theorem beq_empty_iff {t : FaultTree} : (t == empty) = true ↔ t = empty := by
  cases t with
  | empty => exact iff_of_true rfl rfl
  | leaf _ | node _ _ => exact iff_of_false Bool.false_ne_true nofun

/-- A canonical tree is empty just if it lists no fault. -/
theorem Canonical.isEmpty_iff_faults {t : FaultTree} (h : Canonical t) :
    t.isEmpty = true ↔ t.faults = [] := by
  rw [isEmpty_iff, faults_eq_nil_iff h]

/-- A canonical tree is empty just if it counts no fault. -/
theorem Canonical.isEmpty_iff_len {t : FaultTree} (h : Canonical t) :
    t.isEmpty = true ↔ t.len = 0 := by
  rw [h.isEmpty_iff_faults, ← length_faults, List.length_eq_zero_iff]

end Flowsheet.FaultTree
