import Flowsheet.Proofs.Fault.Composed

/-!
# The flat list of faults

Three recursions speak of the faults of a tree: the walk that lists them, the lookup along a path,
and the count. They agree on every tree that can be composed. A fault is listed with a path just if
the lookup along the path finds a tree with this fault at its root, no path is listed twice, a path
is listed before its extensions, and as many faults are listed as are counted (`faults_iff_at?`).

Both orders are one fact: no path in the list begins with a later one (`pairwise_faults`). Within a
child it is that of the child's own list, and paths into different children part at their first key,
since no key of a canonical tree is repeated.

The list can be made by a walk that carries the path to where it stands and what it has found so far
(`collect`), and the lookup by going from child to child.
-/

namespace Flowsheet.FaultTree

/-! ### A walk with what it has found -/

mutual

/-- Walks through the tree at the end of `path` and adds its faults to those that were found. -/
def collect (path : FaultPath) (found : List (FaultPath × Fault)) :
    FaultTree → List (FaultPath × Fault)
  | empty => found
  | leaf fault => found ++ [(path, fault)]
  | node own children =>
    collectBelow path (found ++ own.toList.map fun fault => (path, fault)) children

/-- Walks through the children of the tree at the end of `path`. -/
def collectBelow (path : FaultPath) (found : List (FaultPath × Fault)) :
    List (FaultKey × FaultTree) → List (FaultPath × Fault)
  | [] => found
  | (key, t) :: rest => collectBelow path (collect (path.join key) found t) rest

end

/-- The walk appends the faults of the tree, each path led by the one to the tree. -/
theorem collect_eq (t : FaultTree) (path : FaultPath) (found : List (FaultPath × Fault)) :
    collect path found t = found ++ t.faults.map fun e => (path ++ e.1, e.2) := by
  induction t using FaultTree.induction generalizing path found with
  | empty => simp [collect, faults]
  | leaf fault => simp [collect, faults]
  | node own children ih =>
      have hbelow : ∀ found, collectBelow path found children =
          found ++ (faultsBelow children).map fun e => (path ++ e.1, e.2) := by
        induction children with
        | nil =>
            intro found
            simp [collectBelow, faultsBelow]
        | cons c rest ihrest =>
            intro found
            have hc := ih c List.mem_cons_self (path.join c.1) found
            have hrest := ihrest fun d hd => ih d (List.mem_cons_of_mem _ hd)
            rw [collectBelow, hc, hrest]
            simp [faultsBelow, FaultPath.join, Function.comp_def]
      rw [collect, hbelow]
      simp [faults, Function.comp_def]

/-- The lookup goes from child to child. -/
theorem foldlM_child? (t : FaultTree) (path : FaultPath) :
    path.foldlM (fun u key => u.child? key) t = t.at? path := by
  induction path generalizing t with
  | nil => exact (at?_nil t).symm
  | cons key rest ih =>
      rw [List.foldlM_cons, at?_cons]
      cases t.child? key with
      | none => rfl
      | some u => exact ih u

/-! ### The order of the list -/

/-- The paths below a list of children, child by child. -/
theorem paths_faultsBelow (cs : List (FaultKey × FaultTree)) :
    (faultsBelow cs).map (·.1) = cs.flatMap fun c => (c.2.faults.map (·.1)).map (c.1 :: ·) := by
  rw [faultsBelow_eq_flatMap, List.map_flatMap]
  simp [Function.comp_def]

/-- No path in the list of faults begins with one that is listed later, or twice. -/
theorem pairwise_faults {t : FaultTree} (h : Canonical t) :
    (t.faults.map (·.1)).Pairwise fun p q => ¬ q <+: p := by
  induction t using FaultTree.induction with
  | empty => exact List.Pairwise.nil
  | leaf fault => exact List.pairwise_singleton _ _
  | node own cs ih =>
      obtain ⟨-, hkeys, hbelow⟩ := h
      rw [faults, List.map_append, paths_faultsBelow, List.map_map]
      have hchildren : (cs.flatMap fun c => (c.2.faults.map (·.1)).map (c.1 :: ·)).Pairwise
          fun p q => ¬ q <+: p := by
        rw [List.pairwise_flatMap]
        constructor
        · -- within a child both paths begin with its key
          intro c hc
          have hc' := ih c hc (canonicalBelow_iff.mp hbelow c hc).2
          rw [List.pairwise_map]
          apply hc'.imp
          intro p q hpq hqp
          exact hpq (List.cons_prefix_cons.mp hqp).2
        · -- the keys of two children differ
          apply (List.pairwise_map.mp hkeys).imp
          intro c d hcd p hp q hq hqp
          obtain ⟨p, -, rfl⟩ := List.mem_map.mp hp
          obtain ⟨q, -, rfl⟩ := List.mem_map.mp hq
          exact hcd (List.cons_prefix_cons.mp hqp).1.symm
      apply List.pairwise_append.mpr
      refine ⟨?_, hchildren, ?_⟩
      · cases own with
        | none => exact List.Pairwise.nil
        | some fault => exact List.pairwise_singleton _ _
      · intro p hp q hq hqp
        obtain ⟨fault, -, rfl⟩ := List.mem_map.mp hp
        obtain ⟨c, -, hq⟩ := List.mem_flatMap.mp hq
        obtain ⟨rest, -, rfl⟩ := List.mem_map.mp hq
        exact List.cons_ne_nil _ _ (List.prefix_nil.mp hqp)

/-- No path is listed twice. -/
theorem nodup_faults {t : FaultTree} (h : Canonical t) : (t.faults.map (·.1)).Nodup := by
  apply (pairwise_faults h).imp
  rintro p q hpq rfl
  exact hpq List.prefix_rfl

/-- A path is listed before its extensions. -/
theorem lt_of_prefix_faults {t : FaultTree} (h : Canonical t) {i j : Nat} {p q : FaultPath}
    (hp : (t.faults.map (·.1))[i]? = some p) (hq : (t.faults.map (·.1))[j]? = some q)
    (hpq : p <+: q) (hne : p ≠ q) : i < j := by
  obtain ⟨hi, rfl⟩ := List.getElem?_eq_some_iff.mp hp
  obtain ⟨hj, rfl⟩ := List.getElem?_eq_some_iff.mp hq
  rcases Nat.lt_trichotomy i j with hlt | heq | hgt
  · exact hlt
  · subst heq
    exact absurd rfl hne
  · exact absurd hpq (List.pairwise_iff_getElem.mp (pairwise_faults h) j i hj hi hgt)

/-! ### The list, the lookup and the count -/

/-- However a tree was composed: a fault is listed with a path just if the tree at the end of the
path has it at its root, the paths are distinct, each comes before all paths that go on from it, and
the list is as long as is counted. The list is what a walk finds that begins at the root with
nothing found, and the lookup goes down child by child. -/
theorem faults_iff_at? {t : FaultTree} (h : Composed t) :
    (∀ path fault, (path, fault) ∈ t.faults ↔
      ∃ u, t.at? path = some u ∧ u.fault? = some fault) ∧
    (t.faults.map (·.1)).Nodup ∧
    (∀ (i j : Nat) p q, (t.faults.map (·.1))[i]? = some p → (t.faults.map (·.1))[j]? = some q →
      p <+: q → p ≠ q → i < j) ∧
    t.faults.length = t.len ∧
    collect .root [] t = t.faults ∧
    ∀ path : FaultPath, path.foldlM (fun u key => u.child? key) t = t.at? path := by
  refine ⟨fun path fault => ?_, nodup_faults h.canonical, fun i j p q hp hq => ?_,
    length_faults t, ?_, foldlM_child? t⟩
  · rw [mem_faults_iff h.canonical, Option.bind_eq_some_iff]
  · exact lt_of_prefix_faults h.canonical hp hq
  · simp [collect_eq, FaultPath.root]

/-- The faults of a list of ports that could not be read, and of two ports in its fallback. -/
def faultyPorts : FaultTree :=
  merge (some ⟨.text "no ports"⟩)
    [(.index 2, leaf ⟨.text "no index"⟩), (.index 0, leaf ⟨.text "no type"⟩)]

/-- A marked node with these ports and without a name. -/
def markedPorts : FaultTree :=
  (merge none
    [(.field "name", leaf (Fault.missing "name")), (.field "in_ports", faultyPorts)]).inject
      ⟨.text "unreadable"⟩

/-- The tree of the ports can be composed. -/
theorem composed_faultyPorts : Composed faultyPorts := .pair (.leaf _) (.leaf _)

/-- So can the tree with the marks. -/
theorem composed_markedPorts : Composed markedPorts :=
  (Composed.pair (.leaf _) composed_faultyPorts).inject _

/-- Its five faults: that of the list of ports is the third, and those of the ports come later. -/
theorem faults_iff_at?_markedPorts :
    Composed markedPorts ∧
      ([.field "in_ports", .index 0], Fault.mk (.text "no type")) ∈ markedPorts.faults ∧
      (markedPorts.faults.map (·.1)).Nodup ∧
      (∀ i, (markedPorts.faults.map (·.1))[i]? = some [.field "in_ports", .index 0] → 2 < i) ∧
      markedPorts.faults.length = 5 := by
  obtain ⟨hlisted, hnodup, hbefore, hlength, -⟩ := faults_iff_at? composed_markedPorts
  refine ⟨composed_markedPorts, (hlisted _ _).mpr ⟨_, rfl, rfl⟩, hnodup, fun i hi => ?_, hlength⟩
  exact hbefore 2 i [.field "in_ports"] _ rfl hi (List.prefix_append _ _) (by decide)

end Flowsheet.FaultTree
