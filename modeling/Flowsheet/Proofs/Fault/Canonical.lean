import Flowsheet.Fault.Tree
import Flowsheet.Proofs.Assoc

/-!
# Canonical fault trees

A tree is `Canonical` if no node in it has an empty child, a repeated key, or neither a fault of its
own nor a child. `merge` and `inject` build such trees from such trees (`canonical_merge`,
`canonical_inject`), and in them the one tree without a fault is `empty` (`faults_eq_nil_iff`).

The sections before say what `merge` and `inject` do to the views of a tree: its children, its
fields' trees, and the list of its faults.
-/

namespace Flowsheet.FaultTree

/-- Induction over trees: a node's children are an arbitrary list of smaller trees. -/
theorem induction {P : FaultTree → Prop} (empty : P .empty) (leaf : ∀ fault, P (.leaf fault))
    (node : ∀ own children, (∀ c ∈ children, P c.2) → P (.node own children)) : ∀ t, P t :=
  @FaultTree.rec P (fun cs => ∀ c ∈ cs, P c.2) (fun c => P c.2) empty leaf
    (fun own children ih => node own children ih)
    (fun _ h => absurd h List.not_mem_nil)
    (fun _ _ head tail c hc => (List.mem_cons.mp hc).elim (fun h => h ▸ head) (tail c))
    (fun _ _ h => h)

/-- The outermost constructor decides whether a tree has faults: every tree but the empty one
counts. -/
theorem hasFaults_iff {t : FaultTree} : t.hasFaults = true ↔ t ≠ empty := by
  cases t <;> simp [hasFaults, isEmpty]

/-- Only the empty tree counts as one without faults. -/
theorem hasFaults_eq_false_iff {t : FaultTree} : t.hasFaults = false ↔ t = empty := by
  cases t <;> simp [hasFaults, isEmpty]

/-- The empty tree has no faults. -/
@[simp] theorem hasFaults_empty : empty.hasFaults = false := rfl

/-! ### Children of built trees -/

/-- A tree that is made of a fault and children has these children, even if it is empty. -/
@[simp] theorem children_ofParts (own : Option Fault) (cs : List (FaultKey × FaultTree)) :
    (ofParts own cs).children = cs := by
  cases own <;> cases cs <;> rfl

/-- A tree that is made of a fault and children has that fault at its root. -/
@[simp] theorem fault?_ofParts (own : Option Fault) (cs : List (FaultKey × FaultTree)) :
    (ofParts own cs).fault? = own := by
  cases own <;> cases cs <;> rfl

/-- The fault at such a root is one of an inner node. -/
@[simp] theorem selfFault?_ofParts (own : Option Fault) (cs : List (FaultKey × FaultTree)) :
    (ofParts own cs).selfFault? = own := by
  cases own <;> cases cs <;> rfl

/-- A tree that is made of a fault and children is no leaf, not even without children. -/
@[simp] theorem leafFault?_ofParts (own : Option Fault) (cs : List (FaultKey × FaultTree)) :
    (ofParts own cs).leafFault? = none := by
  cases own <;> cases cs <;> rfl

/-- The empty tree is made of no fault and no children, and of nothing else. -/
theorem ofParts_eq_empty_iff {own : Option Fault} {cs : List (FaultKey × FaultTree)} :
    ofParts own cs = empty ↔ own = none ∧ cs = [] := by
  cases own <;> cases cs <;> simp [ofParts]

/-- A fault or a child makes an inner node. -/
theorem ofParts_eq_node {own : Option Fault} {cs : List (FaultKey × FaultTree)}
    (h : own ≠ none ∨ cs ≠ []) : ofParts own cs = node own cs := by
  unfold ofParts
  rw [if_neg]
  rw [Bool.and_eq_true, Option.isNone_iff_eq_none, List.isEmpty_iff]
  exact Classical.not_and_iff_not_or_not.mpr h

/-- A merged tree has the fault at its root that it was given. -/
@[simp] theorem fault?_merge (own : Option Fault) (cs : List (FaultKey × FaultTree)) :
    (merge own cs).fault? = own := fault?_ofParts _ _

/-- The fault that a merge is given is one of an inner node. -/
@[simp] theorem selfFault?_merge (own : Option Fault) (cs : List (FaultKey × FaultTree)) :
    (merge own cs).selfFault? = own := selfFault?_ofParts _ _

/-- A merge makes no leaf. -/
@[simp] theorem leafFault?_merge (own : Option Fault) (cs : List (FaultKey × FaultTree)) :
    (merge own cs).leafFault? = none := leafFault?_ofParts _ _

/-- With distinct keys merging only drops the empty trees. -/
theorem merge_of_nodup {own : Option Fault} {cs : List (FaultKey × FaultTree)}
    (h : (Assoc.keys cs).Nodup) :
    merge own cs = ofParts own (cs.filter fun c => c.2.hasFaults) := by
  unfold merge
  rw [Assoc.ofList_of_nodup (Assoc.nodup_keys_filter _ h)]

/-- Of trees that are given for different keys, a merge drops the empty ones and keeps the
others. -/
theorem children_merge_of_nodup (own : Option Fault) {cs : List (FaultKey × FaultTree)}
    (h : (Assoc.keys cs).Nodup) :
    (merge own cs).children = cs.filter fun c => c.2.hasFaults := by
  rw [merge_of_nodup h, children_ofParts]

/-- A merge is empty just if it is given no fault and only empty trees. -/
theorem merge_eq_empty_iff {own : Option Fault} {cs : List (FaultKey × FaultTree)}
    (h : (Assoc.keys cs).Nodup) : merge own cs = empty ↔ own = none ∧ ∀ c ∈ cs, c.2 = empty := by
  rw [merge_of_nodup h, ofParts_eq_empty_iff, List.filter_eq_nil_iff]
  simp [hasFaults_iff]

/-- Every child of a merged tree is one of the given trees, and not empty. -/
theorem mem_children_merge {own : Option Fault} {cs : List (FaultKey × FaultTree)}
    {c : FaultKey × FaultTree} (h : c ∈ (merge own cs).children) : c ∈ cs ∧ c.2 ≠ empty := by
  unfold merge at h
  rw [children_ofParts] at h
  obtain ⟨hmem, hfaults⟩ := List.mem_filter.mp (Assoc.mem_of_mem_ofList h)
  exact ⟨hmem, hasFaults_iff.mp hfaults⟩

/-- The children of a merged tree are merged already. -/
theorem merge_children_merge (own own' : Option Fault) (cs : List (FaultKey × FaultTree)) :
    merge own' (merge own cs).children = ofParts own' (merge own cs).children := by
  have hkeys : (Assoc.keys (merge own cs).children).Nodup := by
    unfold merge
    rw [children_ofParts]
    exact Assoc.nodup_keys_ofList _
  have hfilter : (merge own cs).children.filter (fun c => c.2.hasFaults) =
      (merge own cs).children := by
    rw [List.filter_eq_self]
    intro c hc
    exact hasFaults_iff.mpr (mem_children_merge hc).2
  rw [merge_of_nodup hkeys, hfilter]

/-- A merged tree is what its own parts merge to. -/
theorem merge_fault?_children (own : Option Fault) (cs : List (FaultKey × FaultTree)) :
    merge (merge own cs).fault? (merge own cs).children = merge own cs := by
  rw [merge_children_merge, fault?_merge]
  unfold merge
  rw [children_ofParts]

/-! ### Trees of fields -/

/-- Nothing stands below the empty tree. -/
@[simp] theorem subtree_empty (name : String) : empty.subtree name = empty := rfl

/-- The child of a merged tree under a key is what was given for the key, unless that is empty. -/
theorem child?_merge_of_nodup (own : Option Fault) {cs : List (FaultKey × FaultTree)}
    (h : (Assoc.keys cs).Nodup) (key : FaultKey) :
    (merge own cs).child? key = (Assoc.get? key cs).filter fun u => u.hasFaults := by
  unfold child?
  rw [children_merge_of_nodup _ h, Assoc.get?_filter _ h]

/-- A merged tree has a child for each of the given trees that is not empty. -/
theorem child?_merge_of_mem {own : Option Fault} {cs : List (FaultKey × FaultTree)}
    (h : (Assoc.keys cs).Nodup) {key : FaultKey} {t : FaultTree} (ht : (key, t) ∈ cs) :
    (merge own cs).child? key = (some t).filter fun u => u.hasFaults := by
  rw [child?_merge_of_nodup own h, (Assoc.get?_eq_some_iff h).mpr ht]

/-- Of the trees that are given for one key the last one counts. -/
theorem child?_merge_append (own : Option Fault) (cs ds : List (FaultKey × FaultTree))
    (key : FaultKey) :
    (merge own (cs ++ ds)).child? key =
      ((merge own ds).child? key).or ((merge own cs).child? key) := by
  unfold merge child?
  rw [children_ofParts, children_ofParts, children_ofParts, List.filter_append, Assoc.get?_ofList,
    Assoc.get?_ofList, Assoc.get?_ofList, List.reverse_append, Assoc.get?_append]

/-- The tree of a child of a merged tree is the one that was given, empty or not. -/
theorem child?_merge {own : Option Fault} {cs : List (FaultKey × FaultTree)}
    (h : (Assoc.keys cs).Nodup) {key : FaultKey} {t : FaultTree} (ht : (key, t) ∈ cs) :
    ((merge own cs).child? key).getD empty = t := by
  rw [child?_merge_of_mem h ht]
  cases t <;> rfl

/-- In particular that of a field. -/
theorem subtree_merge {own : Option Fault} {cs : List (FaultKey × FaultTree)}
    (h : (Assoc.keys cs).Nodup) {name : String} {t : FaultTree} (ht : (.field name, t) ∈ cs) :
    (merge own cs).subtree name = t := child?_merge h ht

/-- An injected fault leaves the trees of all fields as they are. -/
@[simp] theorem subtree_inject (fault : Fault) (t : FaultTree) (name : String) :
    (t.inject fault).subtree name = t.subtree name := by
  rcases t with _ | _ | ⟨_ | old, cs⟩
  · rfl
  · rfl
  · cases cs <;> rfl
  · simp [inject, subtree, field?, child?, Assoc.get?_insert, Assoc.get?_erase]
    rfl

/-- Apart from `prior` an injected fault leaves the children as they are. -/
theorem erase_children_inject (fault : Fault) (t : FaultTree) :
    Assoc.erase .prior (t.inject fault).children = Assoc.erase .prior t.children := by
  rcases t with _ | _ | ⟨_ | old, cs⟩
  · rfl
  · rfl
  · cases cs <;> rfl
  · -- the history is written after the one before it is erased, and both are erased here
    rw [inject, children_ofParts, Assoc.erase_insert, Assoc.erase_erase]
    rfl

/-- A tree below which something stands has faults. -/
theorem hasFaults_of_subtree {t : FaultTree} {name : String} (h : t.subtree name ≠ empty) :
    t.hasFaults = true := by
  rw [hasFaults_iff]
  rintro rfl
  exact h rfl

/-- A field whose tree is not empty has it as a child. -/
theorem field?_of_subtree {t u : FaultTree} {name : String} (h : t.subtree name = u)
    (hu : u ≠ empty) : t.field? name = some u := by
  unfold subtree at h
  cases hfield : t.field? name with
  | none =>
      rw [hfield] at h
      exact absurd h.symm hu
  | some v => rw [hfield] at h; exact congrArg some h

/-! ### The list of faults -/

/-- The faults below a node are those of the children, with the child's key in front of each
path. -/
theorem faultsBelow_eq_flatMap (cs : List (FaultKey × FaultTree)) :
    faultsBelow cs = cs.flatMap fun c => c.2.faults.map fun e => (c.1 :: e.1, e.2) := by
  induction cs with
  | nil => rfl
  | cons c rest ih => rw [faultsBelow, ih, List.flatMap_cons]

/-- The fault at the root comes before those of the children. -/
theorem faults_ofParts (own : Option Fault) (cs : List (FaultKey × FaultTree)) :
    (ofParts own cs).faults = own.toList.map (fun fault => ([], fault)) ++ faultsBelow cs := by
  cases own <;> cases cs <;> rfl

/-- The faults of a merged tree: its own, then those of the given trees in order. -/
theorem faults_merge {own : Option Fault} {cs : List (FaultKey × FaultTree)}
    (h : (Assoc.keys cs).Nodup) :
    (merge own cs).faults = own.toList.map (fun fault => ([], fault)) ++ faultsBelow cs := by
  rw [merge_of_nodup h, faults_ofParts]
  congr 1
  induction cs with
  | nil => rfl
  | cons c rest ih =>
      have hrest := ih (List.nodup_cons.mp h).2
      obtain ⟨key, t⟩ := c
      cases t with
      | empty => rw [List.filter_cons_of_neg (by simp), hrest]; rfl
      | leaf fault => rw [List.filter_cons_of_pos rfl, faultsBelow, faultsBelow, hrest]
      | node own' cs' => rw [List.filter_cons_of_pos rfl, faultsBelow, faultsBelow, hrest]

/-- A fault of a merged tree is its own or one of the given trees', whatever their keys. -/
theorem mem_faults_merge {own : Option Fault} {cs : List (FaultKey × FaultTree)} {path : FaultPath}
    {fault : Fault} (h : (path, fault) ∈ (merge own cs).faults) :
    (path = [] ∧ own = some fault) ∨
      ∃ c ∈ cs, ∃ rest, path = c.1 :: rest ∧ (rest, fault) ∈ c.2.faults := by
  unfold merge at h
  rw [faults_ofParts, faultsBelow_eq_flatMap] at h
  rcases List.mem_append.mp h with hown | hbelow
  · obtain ⟨f, hf, heq⟩ := List.mem_map.mp hown
    obtain ⟨rfl, rfl⟩ := Prod.mk.inj heq
    exact Or.inl ⟨rfl, Option.mem_toList.mp hf⟩
  · obtain ⟨c, hc, he⟩ := List.mem_flatMap.mp hbelow
    obtain ⟨⟨rest, f⟩, hmem, heq⟩ := List.mem_map.mp he
    obtain ⟨rfl, rfl⟩ := Prod.mk.inj heq
    have hcs : c ∈ cs := (List.mem_filter.mp (Assoc.mem_of_mem_ofList hc)).1
    exact Or.inr ⟨c, hcs, rest, rfl, hmem⟩

/-! ### Canonical form -/

mutual

/-- No node has an empty child, a repeated key, or neither a fault of its own nor a child. -/
def Canonical : FaultTree → Prop
  | empty | leaf _ => True
  | node own children =>
    (own ≠ none ∨ children ≠ []) ∧ (Assoc.keys children).Nodup ∧ CanonicalBelow children

/-- All children are canonical and none is empty. -/
def CanonicalBelow : List (FaultKey × FaultTree) → Prop
  | [] => True
  | (_, t) :: rest => t ≠ empty ∧ Canonical t ∧ CanonicalBelow rest

end

/-- Children are canonical below a node just if each is, and none is empty. -/
theorem canonicalBelow_iff {cs : List (FaultKey × FaultTree)} :
    CanonicalBelow cs ↔ ∀ c ∈ cs, c.2 ≠ empty ∧ Canonical c.2 := by
  induction cs with
  | nil => simp [CanonicalBelow]
  | cons c rest ih => simp [CanonicalBelow, ih, and_assoc]

/-- A tree that is made of canonical children under different keys, none of them empty, is
canonical. -/
theorem canonical_ofParts {own : Option Fault} {cs : List (FaultKey × FaultTree)}
    (hkeys : (Assoc.keys cs).Nodup) (h : ∀ c ∈ cs, c.2 ≠ empty ∧ Canonical c.2) :
    Canonical (ofParts own cs) := by
  by_cases hparts : own = none ∧ cs = []
  · rw [ofParts_eq_empty_iff.mpr hparts]
    trivial
  · have hnode : ofParts own cs = node own cs := by
      unfold ofParts
      rw [if_neg (by simpa using hparts)]
    rw [hnode]
    exact ⟨Classical.not_and_iff_not_or_not.mp hparts, hkeys, canonicalBelow_iff.mpr h⟩

/-- Whatever canonical trees are merged, under whatever keys, the result is canonical. -/
theorem canonical_merge {own : Option Fault} {cs : List (FaultKey × FaultTree)}
    (h : ∀ c ∈ cs, Canonical c.2) : Canonical (merge own cs) := by
  refine canonical_ofParts (Assoc.nodup_keys_ofList _) fun c hc => ?_
  obtain ⟨hmem, hfaults⟩ := List.mem_filter.mp (Assoc.mem_of_mem_ofList hc)
  exact ⟨hasFaults_iff.mp hfaults, h c hmem⟩

/-- An injected fault keeps a tree canonical: what was there moves below the new fault. -/
theorem canonical_inject {t : FaultTree} (h : Canonical t) (fault : Fault) :
    Canonical (t.inject fault) := by
  rcases t with _ | old | ⟨_ | old, cs⟩
  · exact canonical_ofParts (List.nodup_nil) fun c hc => absurd hc List.not_mem_nil
  · refine canonical_ofParts (List.nodup_cons.mpr ⟨List.not_mem_nil, List.nodup_nil⟩) fun c hc => ?_
    rw [List.mem_singleton.mp hc]
    exact ⟨FaultTree.noConfusion, trivial⟩
  · exact canonical_ofParts h.2.1 (canonicalBelow_iff.mp h.2.2)
  -- here the old fault moves below `prior`, on top of the history that was there
  · have hbelow := canonicalBelow_iff.mp h.2.2
    have hearlier : Canonical ((Assoc.get? .prior cs).getD empty) := by
      cases hprior : Assoc.get? .prior cs with
      | none => trivial
      | some u => exact (hbelow _ (Assoc.mem_of_get?_eq_some hprior)).2
    have hhistory : history old ((Assoc.get? .prior cs).getD empty) ≠ empty ∧
        Canonical (history old ((Assoc.get? .prior cs).getD empty)) := by
      unfold history
      split
      · exact ⟨FaultTree.noConfusion, trivial⟩
      · refine ⟨fun hmerge => ?_, canonical_merge fun c hc => ?_⟩
        · have hown := (ofParts_eq_empty_iff.mp hmerge).1
          cases hown
        · rw [List.mem_singleton.mp hc]
          exact hearlier
    have hkeys : (Assoc.keys (Assoc.erase .prior cs)).Nodup := Assoc.nodup_keys_filter _ h.2.1
    refine canonical_ofParts (Assoc.nodup_keys_insert hkeys) fun c hc => ?_
    rcases Assoc.mem_of_mem_insert hc with rfl | hc
    · exact hhistory
    · exact hbelow c (List.mem_filter.mp hc).1

/-- In a canonical tree no fault is found only if there is nothing at all. -/
theorem faults_eq_nil_iff {t : FaultTree} (h : Canonical t) : t.faults = [] ↔ t = empty := by
  refine ⟨?_, fun ht => by rw [ht]; rfl⟩
  induction t using FaultTree.induction with
  | empty => exact fun _ => rfl
  | leaf fault => intro hnil; cases hnil
  | node own cs ih =>
      intro hnil
      obtain ⟨hparts, -, hbelow⟩ := h
      rw [faults, List.append_eq_nil_iff, faultsBelow_eq_flatMap, List.flatMap_eq_nil_iff] at hnil
      have hown : own = none := Option.toList_eq_nil_iff.mp (List.map_eq_nil_iff.mp hnil.1)
      obtain ⟨c, hc⟩ := List.exists_mem_of_ne_nil cs (hparts.resolve_left (not_not_intro hown))
      obtain ⟨hne, hcan⟩ := canonicalBelow_iff.mp hbelow c hc
      exact absurd (ih c hc hcan (by simpa using hnil.2 c hc)) hne

/-! ### Faults and their places -/

/-- The list of faults has the length that is counted. -/
theorem length_faults (t : FaultTree) : t.faults.length = t.len := by
  induction t using FaultTree.induction with
  | empty => rfl
  | leaf fault => rfl
  | node own children ih =>
      have hbelow : (faultsBelow children).length = lenBelow children := by
        induction children with
        | nil => rfl
        | cons c rest ihrest =>
            have hc := ih c List.mem_cons_self
            have hrest := ihrest fun c' hc' => ih c' (List.mem_cons_of_mem _ hc')
            rw [faultsBelow, lenBelow, List.length_append, List.length_map, hc, hrest]
      rw [faults, len, List.length_append, List.length_map, hbelow]

/-- In a canonical tree the list of faults has just those that stand at the root of the tree at
their path. -/
theorem mem_faults_iff {t : FaultTree} (h : Canonical t) (path : FaultPath) (fault : Fault) :
    (path, fault) ∈ t.faults ↔ (t.at? path).bind fault? = some fault := by
  induction t using FaultTree.induction generalizing path with
  | empty => cases path <;> simp [faults, at?, fault?, child?, children]
  | leaf own =>
      cases path with
      | nil => simp [faults, fault?, eq_comm]
      | cons key rest => simp [faults, at?_cons, child?, children]
  | node own cs ih =>
      obtain ⟨-, hkeys, hbelow⟩ := h
      rw [faults, List.mem_append, faultsBelow_eq_flatMap]
      cases path with
      | nil =>
          rw [at?_nil, Option.bind_some]
          simp [fault?]
      | cons key rest =>
          -- no two children have one key, so the child under `key` is the one that lists the fault
          have hchild : ∀ u, Assoc.get? key cs = some u →
              ((rest, fault) ∈ u.faults ↔ (u.at? rest).bind fault? = some fault) := by
            intro u hu
            have hmem := Assoc.mem_of_get?_eq_some hu
            exact ih (key, u) hmem (canonicalBelow_iff.mp hbelow _ hmem).2 rest
          rw [at?_cons, child?]
          show _ ↔ ((Assoc.get? key cs).bind _).bind _ = _
          constructor
          · intro hmem
            have hflat : (key :: rest, fault) ∈
                cs.flatMap fun c => c.2.faults.map fun e => (c.1 :: e.1, e.2) :=
              hmem.resolve_left (by simp)
            obtain ⟨c, hc, he⟩ := List.mem_flatMap.mp hflat
            obtain ⟨⟨rest', fault'⟩, hrest, heq⟩ := List.mem_map.mp he
            obtain ⟨hpath, rfl⟩ := Prod.mk.inj heq
            obtain ⟨rfl, rfl⟩ := List.cons.inj hpath
            have hget := (Assoc.get?_eq_some_iff hkeys).mpr hc
            rw [hget]
            exact (hchild _ hget).mp hrest
          · intro hat
            cases hget : Assoc.get? key cs with
            | none =>
                rw [hget] at hat
                cases hat
            | some u =>
                rw [hget] at hat
                refine Or.inr (List.mem_flatMap.mpr ⟨(key, u), Assoc.mem_of_get?_eq_some hget, ?_⟩)
                exact List.mem_map.mpr ⟨(rest, fault), (hchild u hget).mpr hat, rfl⟩

end Flowsheet.FaultTree
