import Flowsheet.Proofs.Fault.History
import Flowsheet.Proofs.Fault.Listing
import Flowsheet.Proofs.Fault.Merged
import Mathlib.Data.List.Forall2
import Mathlib.Data.List.Perm.Subperm

/-!
# Equal fault trees

Trees are equal if their faults have the same messages, whatever the order of their children. On
canonical trees that comes down to the views: equal faults at the root, and under every key either
no child on either side or equal children (`beq_iff`). So equality is an equivalence, and whatever
is defined by the views respects it: lookups, the list of faults, further faults, and merging
(`beq_congruence`).

The laws are proved by induction from a tree to its children (`induction_child?`). Canonical form is
needed at every step, since equality looks keys up and would miss a repeated one.
-/

namespace Flowsheet.FaultTree

/-- What holds of a tree whenever it holds of its children holds of all trees. -/
theorem induction_child? {P : FaultTree → Prop}
    (step : ∀ t, (∀ key u, t.child? key = some u → P u) → P t) (t : FaultTree) : P t := by
  induction t using FaultTree.induction with
  | empty | leaf => exact step _ fun key u hu => nomatch hu
  | node own cs ih => exact step _ fun key u hu => ih _ (Assoc.mem_of_get?_eq_some hu)

/-- Equal trees, or no tree on either side. -/
abbrev Agree : Option FaultTree → Option FaultTree → Prop := Option.Rel fun t u => (t == u) = true

/-- On both sides there is a tree, or on neither. -/
theorem Agree.isSome_eq {t? u? : Option FaultTree} (h : Agree t? u?) : t?.isSome = u?.isSome := by
  cases h <;> rfl

/-- A tree on one side has an equal one on the other. -/
theorem Agree.exists_of_some {t? u? : Option FaultTree} (h : Agree t? u?) {t : FaultTree}
    (ht : t? = some t) : ∃ u, u? = some u ∧ (t == u) = true := by
  cases h with
  | none => cases ht
  | some hequal => exact ⟨_, rfl, Option.some.inj ht ▸ hequal⟩

/-- No tree on one side means none on the other. -/
theorem Agree.eq_none_iff {t? u? : Option FaultTree} (h : Agree t? u?) : t? = none ↔ u? = none := by
  rw [← Option.not_isSome_iff_eq_none, ← Option.not_isSome_iff_eq_none, h.isSome_eq]

/-! ### Views of equal trees -/

/-- What stands under a key on one side has an equal tree under it on the other. -/
theorem get?_of_sameBelow {as bs : List (FaultKey × FaultTree)} (h : sameBelow as bs = true)
    {key : FaultKey} {t : FaultTree} (ht : Assoc.get? key as = some t) :
    ∃ u, Assoc.get? key bs = some u ∧ (t == u) = true := by
  induction as with
  | nil => cases ht
  | cons a rest ih =>
      obtain ⟨k, v⟩ := a
      rw [sameBelow, Bool.and_eq_true] at h
      rw [Assoc.get?_cons] at ht
      by_cases hk : k = key
      · rw [if_pos hk] at ht
        obtain rfl := Option.some.inj ht
        subst hk
        cases hget : Assoc.get? k bs with
        | none =>
            rw [hget] at h
            cases h.1
        | some u =>
            rw [hget] at h
            exact ⟨u, rfl, h.1⟩
      · rw [if_neg hk] at ht
        exact ih h.2 ht

/-- Equal trees have equal children. -/
theorem child?_of_beq {t u : FaultTree} (h : (t == u) = true) {key : FaultKey} {c : FaultTree}
    (hc : t.child? key = some c) : ∃ d, u.child? key = some d ∧ (c == d) = true := by
  cases t with
  | empty | leaf _ => cases hc
  | node own as =>
      cases u with
      | empty | leaf _ => cases h
      | node own' bs =>
          have hsame : (own == own' && as.length == bs.length && sameBelow as bs) = true := h
          rw [Bool.and_eq_true] at hsame
          exact get?_of_sameBelow hsame.2 hc

/-- Children are found again if each has an equal tree under its key. -/
theorem sameBelow_of_get? {as bs : List (FaultKey × FaultTree)}
    (h : ∀ c ∈ as, ∃ u, Assoc.get? c.1 bs = some u ∧ (c.2 == u) = true) :
    sameBelow as bs = true := by
  induction as with
  | nil => rfl
  | cons c rest ih =>
      obtain ⟨u, hu, hsame⟩ := h c List.mem_cons_self
      rw [sameBelow, hu, ih fun d hd => h d (List.mem_cons_of_mem _ hd), Bool.and_true]
      exact hsame

/-- Faults count as equal just if they have the same wording. -/
theorem beq_fault_iff {fault fault' : Fault} :
    (fault == fault') = true ↔ fault.message = fault'.message := by
  show (fault.message == fault'.message) = true ↔ _
  exact beq_iff_eq

/-- The faults at two roots count as equal just if they have the same wording, or neither is
there. -/
theorem beq_own_iff {own own' : Option Fault} :
    (own == own') = true ↔ own.map Fault.message = own'.map Fault.message := by
  cases own with
  | none => cases own' <;> simp
  | some fault =>
      cases own' with
      | none => simp
      | some fault' => exact beq_fault_iff.trans Option.some_inj.symm

/-- Lists of children that agree under every key have the same keys. -/
theorem perm_keys_of_agree {cs ds : List (FaultKey × FaultTree)} (hcs : (Assoc.keys cs).Nodup)
    (hds : (Assoc.keys ds).Nodup)
    (h : ∀ key, Agree (Assoc.get? key cs) (Assoc.get? key ds)) :
    (Assoc.keys cs).Perm (Assoc.keys ds) := by
  rw [List.perm_ext_iff_of_nodup hcs hds]
  intro key
  rw [← Assoc.get?_isSome_iff, ← Assoc.get?_isSome_iff, (h key).isSome_eq]

/-- Nodes are equal if their own faults are and their children agree under every key. -/
theorem beq_node_iff {own own' : Option Fault} {cs ds : List (FaultKey × FaultTree)}
    (hcs : (Assoc.keys cs).Nodup) (hds : (Assoc.keys ds).Nodup) :
    (node own cs == node own' ds) = true ↔ own.map Fault.message = own'.map Fault.message ∧
      ∀ key, Agree (Assoc.get? key cs) (Assoc.get? key ds) := by
  have hunfold : (node own cs == node own' ds) =
      (own == own' && cs.length == ds.length && sameBelow cs ds) := rfl
  rw [hunfold, Bool.and_eq_true, Bool.and_eq_true, beq_own_iff, beq_iff_eq, and_assoc]
  refine and_congr_right fun _ => ⟨fun ⟨hlength, hsame⟩ key => ?_, fun h => ⟨?_, ?_⟩⟩
  · cases hc : Assoc.get? key cs with
    | some t =>
        obtain ⟨u, hu, heq⟩ := get?_of_sameBelow hsame hc
        rw [hu]
        exact .some heq
    | none =>
        -- all keys of the one list are keys of the other, and there are as many
        have hsubset : Assoc.keys cs ⊆ Assoc.keys ds := by
          intro k hk
          obtain ⟨t, ht⟩ := Option.isSome_iff_exists.mp ((Assoc.get?_isSome_iff k cs).mpr hk)
          obtain ⟨u, hu, -⟩ := get?_of_sameBelow hsame ht
          exact Assoc.mem_keys_of_mem (Assoc.mem_of_get?_eq_some hu)
        have hperm : (Assoc.keys cs).Perm (Assoc.keys ds) :=
          (hcs.subperm hsubset).perm_of_length_le (by simp [Assoc.keys, hlength])
        have hd : key ∉ Assoc.keys ds :=
          fun hmem => Assoc.get?_eq_none_iff.mp hc (hperm.mem_iff.mpr hmem)
        rw [Assoc.get?_eq_none_iff.mpr hd]
        exact .none
  · simpa [Assoc.keys] using (perm_keys_of_agree hcs hds h).length_eq
  · exact sameBelow_of_get? fun c hc =>
      (h c.1).exists_of_some ((Assoc.get?_eq_some_iff hcs).mpr hc)

/-- A canonical tree without a fault of its own and without children is empty. -/
theorem Canonical.eq_empty {t : FaultTree} (h : Canonical t) (hleaf : t.leafFault? = none)
    (hself : t.selfFault? = none) (hchild : ∀ key, t.child? key = none) : t = empty := by
  cases t with
  | empty => rfl
  | leaf fault => cases hleaf
  | node own cs =>
      obtain ⟨c, hc⟩ := List.exists_mem_of_ne_nil cs (h.1.resolve_left (not_not_intro hself))
      have hget := (Assoc.get?_eq_some_iff h.2.1).mpr hc
      exact nomatch hget.symm.trans (hchild c.1)

/-- Canonical trees are equal if all that can be seen of them is. -/
theorem beq_iff {t u : FaultTree} (ht : Canonical t) (hu : Canonical u) :
    (t == u) = true ↔ t.leafFault?.map Fault.message = u.leafFault?.map Fault.message ∧
      t.selfFault?.map Fault.message = u.selfFault?.map Fault.message ∧
      ∀ key, Agree (t.child? key) (u.child? key) := by
  -- canonical trees of different constructors differ in the fault at the root or in some child
  cases t with
  | empty =>
      constructor
      · intro h
        cases u with
        | empty => exact ⟨rfl, rfl, fun _ => .none⟩
        | leaf _ | node _ _ => cases h
      · rintro ⟨hleaf, hself, hchild⟩
        rw [hu.eq_empty (Option.map_eq_none_iff.mp hleaf.symm)
          (Option.map_eq_none_iff.mp hself.symm) fun key => (hchild key).eq_none_iff.mp rfl]
        rfl
  | leaf fault =>
      cases u with
      | empty | node _ _ => exact iff_of_false nofun fun h => nomatch h.1
      | leaf fault' =>
          have hfault : (leaf fault == leaf fault') = true ↔ fault.message = fault'.message :=
            beq_fault_iff
          exact hfault.trans ⟨fun h => ⟨congrArg some h, rfl, fun _ => .none⟩,
            fun h => Option.some.inj h.1⟩
  | node own cs =>
      cases u with
      | empty =>
          refine iff_of_false nofun fun ⟨_, hself, hchild⟩ => ?_
          have hempty := ht.eq_empty rfl (Option.map_eq_none_iff.mp hself)
            fun key => (hchild key).eq_none_iff.mpr rfl
          cases hempty
      | leaf _ => exact iff_of_false nofun fun h => nomatch h.1
      | node own' ds =>
          rw [beq_node_iff ht.2.1 hu.2.1]
          exact ⟨fun h => ⟨rfl, h⟩, fun h => h.2⟩

/-! ### Equality is an equivalence -/

/-- A canonical tree equals itself: each child is found under its own key. -/
theorem beq_refl {t : FaultTree} (h : Canonical t) : (t == t) = true := by
  induction t using induction_child? with
  | step t ih =>
      refine (beq_iff h h).mpr ⟨rfl, rfl, fun key => ?_⟩
      cases hchild : t.child? key with
      | none => exact .none
      | some c => exact .some (ih key c hchild (h.child? hchild))

/-- Equality of canonical trees does not depend on the direction; as many children are on either
side, so that none is left over. -/
theorem beq_symm {t u : FaultTree} (ht : Canonical t) (hu : Canonical u) (h : (t == u) = true) :
    (u == t) = true := by
  induction t using induction_child? generalizing u with
  | step t ih =>
      obtain ⟨hleaf, hself, hchild⟩ := (beq_iff ht hu).mp h
      refine (beq_iff hu ht).mpr ⟨hleaf.symm, hself.symm, fun key => ?_⟩
      cases hc : t.child? key with
      | none =>
          rw [(hchild key).eq_none_iff.mp hc]
          exact .none
      | some c =>
          obtain ⟨d, hd, hequal⟩ := (hchild key).exists_of_some hc
          rw [hd]
          exact .some (ih key c hc (ht.child? hc) (hu.child? hd) hequal)

/-- Equality of canonical trees is passed on, child by child. -/
theorem beq_trans {t u v : FaultTree} (ht : Canonical t) (hu : Canonical u) (hv : Canonical v)
    (htu : (t == u) = true) (huv : (u == v) = true) : (t == v) = true := by
  induction t using induction_child? generalizing u v with
  | step t ih =>
      obtain ⟨hleaf, hself, hchild⟩ := (beq_iff ht hu).mp htu
      obtain ⟨hleaf', hself', hchild'⟩ := (beq_iff hu hv).mp huv
      refine (beq_iff ht hv).mpr ⟨hleaf.trans hleaf', hself.trans hself', fun key => ?_⟩
      cases hc : t.child? key with
      | none =>
          rw [(hchild' key).eq_none_iff.mp ((hchild key).eq_none_iff.mp hc)]
          exact .none
      | some c =>
          obtain ⟨d, hd, hcd⟩ := (hchild key).exists_of_some hc
          obtain ⟨e, he, hde⟩ := (hchild' key).exists_of_some hd
          rw [he]
          exact .some (ih key c hc (ht.child? hc) (hu.child? hd) (hv.child? he) hcd hde)

/-- What may be there agrees with itself if it is canonical. -/
theorem agree_refl {t? : Option FaultTree} (h : ∀ t, t? = some t → Canonical t) :
    Agree t? t? := by
  cases t? with
  | none => exact .none
  | some t => exact .some (beq_refl (h t rfl))

/-! ### The order of children -/

/-- The same keys in the same order, with equal trees under them. -/
abbrev Matched : List (FaultKey × FaultTree) → List (FaultKey × FaultTree) → Prop :=
  List.Forall₂ fun c d => c.1 = d.1 ∧ (c.2 == d.2) = true

/-- Matched children stand under the same keys. -/
theorem Matched.keys_eq {cs ds : List (FaultKey × FaultTree)} (h : Matched cs ds) :
    Assoc.keys cs = Assoc.keys ds := by
  induction h with
  | nil => rfl
  | cons hcd _ ih => rw [Assoc.keys_cons, Assoc.keys_cons, hcd.1, ih]

/-- Under each key, matched children agree. -/
theorem Matched.agree {cs ds : List (FaultKey × FaultTree)} (h : Matched cs ds) (key : FaultKey) :
    Agree (Assoc.get? key cs) (Assoc.get? key ds) := by
  induction h with
  | nil => exact .none
  | cons hcd _ ih =>
      rw [Assoc.get?_cons, Assoc.get?_cons, hcd.1]
      split
      · exact .some hcd.2
      · exact ih

/-- Canonical children match themselves. -/
theorem matched_refl {cs : List (FaultKey × FaultTree)} (h : ∀ c ∈ cs, Canonical c.2) :
    Matched cs cs :=
  List.forall₂_same.mpr fun c hc => ⟨rfl, beq_refl (h c hc)⟩

/-- Trees that differ in the order of children only, at any number of nodes. -/
inductive Reordered : FaultTree → FaultTree → Prop where
  /-- No difference. -/
  | refl (t : FaultTree) : Reordered t t
  /-- The children of the root in another order. -/
  | here {own : Option Fault} {cs ds : List (FaultKey × FaultTree)} (h : cs.Perm ds) :
    Reordered (.node own cs) (.node own ds)
  /-- Another order somewhere in one child. -/
  | inChild {own : Option Fault} {pre post : List (FaultKey × FaultTree)} {key : FaultKey}
    {t u : FaultTree} (h : Reordered t u) :
    Reordered (.node own (pre ++ (key, t) :: post)) (.node own (pre ++ (key, u) :: post))
  /-- One after the other. -/
  | trans {t u v : FaultTree} (htu : Reordered t u) (huv : Reordered u v) : Reordered t v

/-- The order of children does not count, and no order makes a tree hollow. -/
theorem Reordered.beq {t u : FaultTree} (h : Reordered t u) (ht : Canonical t) :
    Canonical u ∧ (t == u) = true := by
  induction h with
  | refl t => exact ⟨ht, beq_refl ht⟩
  | trans _ _ ih ih' =>
      obtain ⟨hu, htu⟩ := ih ht
      obtain ⟨hv, huv⟩ := ih' hu
      exact ⟨hv, beq_trans ht hu hv htu huv⟩
  | @here own cs ds hperm =>
      obtain ⟨hparts, hkeys, hbelow⟩ := ht
      rw [canonicalBelow_iff] at hbelow
      have hkeys' : (Assoc.keys ds).Nodup := (hperm.map Prod.fst).nodup_iff.mp hkeys
      have hne : cs ≠ [] → ds ≠ [] := fun hcs hds => hcs (hds ▸ hperm).eq_nil
      have hbelow' : CanonicalBelow ds :=
        canonicalBelow_iff.mpr fun c hc => hbelow c (hperm.mem_iff.mpr hc)
      refine ⟨⟨hparts.imp_right hne, hkeys', hbelow'⟩, ?_⟩
      refine (beq_node_iff hkeys hkeys').mpr ⟨rfl, fun key => ?_⟩
      rw [← Assoc.get?_perm key hperm hkeys]
      exact agree_refl fun c hc => (hbelow _ (Assoc.mem_of_get?_eq_some hc)).2
  | @inChild own pre post key t u hreordered ih =>
      obtain ⟨-, hkeys, hbelow⟩ := ht
      rw [canonicalBelow_iff, List.forall_mem_append, List.forall_mem_cons] at hbelow
      obtain ⟨hpre, ⟨hne, hcan⟩, hpost⟩ := hbelow
      obtain ⟨hcan', hequal⟩ := ih hcan
      have hne' : u ≠ .empty := by
        rintro rfl
        exact hne (beq_empty_iff.mp hequal)
      -- the other children are matched with themselves
      have hmatched : Matched (pre ++ (key, t) :: post) (pre ++ (key, u) :: post) :=
        List.rel_append (matched_refl fun c hc => (hpre c hc).2)
          (.cons ⟨rfl, hequal⟩ (matched_refl fun c hc => (hpost c hc).2))
      have hbelow' : CanonicalBelow (pre ++ (key, u) :: post) := by
        rw [canonicalBelow_iff, List.forall_mem_append, List.forall_mem_cons]
        exact ⟨hpre, ⟨hne', hcan'⟩, hpost⟩
      have hkeys' := hmatched.keys_eq ▸ hkeys
      exact ⟨⟨Or.inr (by simp), hkeys', hbelow'⟩,
        (beq_node_iff hkeys hkeys').mpr ⟨rfl, hmatched.agree⟩⟩

/-! ### Operations on equal trees -/

section

variable {t u : FaultTree}

/-- Equal trees are both empty or neither is. -/
theorem isEmpty_of_beq (h : (t == u) = true) : t.isEmpty = u.isEmpty := by
  cases t with
  | empty =>
      cases u with
      | empty => rfl
      | leaf _ | node _ _ => cases h
  | leaf _ | node _ _ =>
      cases u with
      | empty => cases h
      | leaf _ | node _ _ => rfl

/-- The fault at the root is that of a leaf or of an inner node. -/
theorem fault?_eq_or (t : FaultTree) : t.fault? = t.leafFault?.or t.selfFault? := by
  cases t <;> rfl

/-- Equal trees have faults of the same wording at their roots. -/
theorem fault?_of_beq (ht : Canonical t) (hu : Canonical u) (h : (t == u) = true) :
    t.fault?.map Fault.message = u.fault?.map Fault.message := by
  obtain ⟨hleaf, hself, -⟩ := (beq_iff ht hu).mp h
  rw [fault?_eq_or, fault?_eq_or, Option.map_or, Option.map_or, hleaf, hself]

/-- Equal trees lead to equal trees. -/
theorem agree_at? (ht : Canonical t) (hu : Canonical u) (h : (t == u) = true) (path : FaultPath) :
    Agree (t.at? path) (u.at? path) := by
  induction path generalizing t u with
  | nil =>
      rw [at?_nil, at?_nil]
      exact .some h
  | cons key rest ih =>
      have hchild := ((beq_iff ht hu).mp h).2.2 key
      rw [at?_cons, at?_cons]
      cases hc : t.child? key with
      | none =>
          rw [hchild.eq_none_iff.mp hc]
          exact .none
      | some c =>
          obtain ⟨d, hd, hequal⟩ := hchild.exists_of_some hc
          rw [hd]
          exact ih (ht.child? hc) (hu.child? hd) hequal

/-- A message is found at a path in the one tree just if it is found there in the other. -/
theorem message_at?_of_beq (ht : Canonical t) (hu : Canonical u) (h : (t == u) = true)
    (path : FaultPath) : ((t.at? path).bind fault?).map Fault.message =
      ((u.at? path).bind fault?).map Fault.message := by
  have hagree := agree_at? ht hu h path
  cases hc : t.at? path with
  | none => rw [hagree.eq_none_iff.mp hc]
  | some c =>
      obtain ⟨d, hd, hequal⟩ := hagree.exists_of_some hc
      rw [hd]
      exact fault?_of_beq (ht.at? hc) (hu.at? hd) hequal

/-- A wording is listed with a path just if the fault that stands there has it. -/
theorem mem_messages_iff (ht : Canonical t) (path : FaultPath) (message : String) :
    (path, message) ∈ t.faults.map (fun e => (e.1, e.2.message)) ↔
      ((t.at? path).bind fault?).map Fault.message = some message := by
  rw [List.mem_map, Option.map_eq_some_iff]
  constructor
  · rintro ⟨⟨p, fault⟩, hmem, heq⟩
    obtain ⟨rfl, hmessage⟩ := Prod.mk.inj heq
    exact ⟨fault, (mem_faults_iff ht p fault).mp hmem, hmessage⟩
  · rintro ⟨fault, hfault, rfl⟩
    exact ⟨(path, fault), (mem_faults_iff ht path fault).mpr hfault, rfl⟩

/-- Equal trees have the same messages at the same paths, in any order. -/
theorem perm_messages_of_beq (ht : Canonical t) (hu : Canonical u) (h : (t == u) = true) :
    (t.faults.map fun e => (e.1, e.2.message)).Perm (u.faults.map fun e => (e.1, e.2.message)) := by
  have hnodup : ∀ {v : FaultTree}, Canonical v →
      (v.faults.map fun e => (e.1, e.2.message)).Nodup := by
    intro v hv
    refine List.Nodup.of_map Prod.fst ?_
    rw [List.map_map]
    exact nodup_faults hv
  rw [List.perm_ext_iff_of_nodup (hnodup ht) (hnodup hu)]
  rintro ⟨path, message⟩
  rw [mem_messages_iff ht, mem_messages_iff hu, message_at?_of_beq ht hu h]

/-! ### Merging and injecting -/

/-- Trees that agree still do when the empty ones are left out. -/
theorem Agree.filter_hasFaults {t? u? : Option FaultTree} (h : Agree t? u?) :
    Agree (t?.filter fun t => t.hasFaults) (u?.filter fun u => u.hasFaults) := by
  cases h with
  | none => exact .none
  | @some t u hequal =>
      rw [Option.filter_some, Option.filter_some, hasFaults, hasFaults, isEmpty_of_beq hequal]
      split
      · exact .some hequal
      · exact .none

/-- Equal children under distinct keys, in any order, are merged to equal trees. -/
theorem beq_merge {own own' : Option Fault} {cs cs' ds : List (FaultKey × FaultTree)}
    (hown : own.map Fault.message = own'.map Fault.message) (hkeys : (Assoc.keys cs).Nodup)
    (hcs : ∀ c ∈ cs, Canonical c.2) (hds : ∀ d ∈ ds, Canonical d.2) (hperm : cs.Perm cs')
    (hmatched : Matched cs' ds) : (merge own cs == merge own' ds) = true := by
  have hkeys' : (Assoc.keys ds).Nodup := by
    rw [← hmatched.keys_eq]
    exact (hperm.map Prod.fst).nodup_iff.mp hkeys
  refine (beq_iff (canonical_merge hcs) (canonical_merge hds)).mpr ⟨?_, ?_, fun key => ?_⟩
  · rw [leafFault?_merge, leafFault?_merge]
  · rw [selfFault?_merge, selfFault?_merge, hown]
  · rw [child?_merge_of_nodup own hkeys, child?_merge_of_nodup own' hkeys',
      Assoc.get?_perm key hperm hkeys]
    exact (hmatched.agree key).filter_hasFaults

/-- Equal earlier trees below faults of the same wording make equal histories. -/
theorem beq_history {own own' : Fault} (hown : own.message = own'.message) (ht : Canonical t)
    (hu : Canonical u) (h : (t == u) = true) : (history own t == history own' u) = true := by
  unfold history
  rw [isEmpty_of_beq h]
  split
  · exact beq_fault_iff.mpr hown
  · refine beq_merge (congrArg some hown) (List.nodup_singleton _) ?_ ?_ (List.Perm.refl _)
      (.cons ⟨rfl, h⟩ .nil)
    · exact fun c hc => List.mem_singleton.mp hc ▸ ht
    · exact fun d hd => List.mem_singleton.mp hd ▸ hu

/-- Equal trees leave equal histories for the next fault. -/
theorem agree_past (ht : Canonical t) (hu : Canonical u) (h : (t == u) = true) :
    Agree t.past u.past := by
  have hfault := fault?_of_beq ht hu h
  have hprior := ((beq_iff ht hu).mp h).2.2 .prior
  unfold past
  cases hown : t.fault? with
  | none =>
      rw [hown] at hfault
      rw [Option.map_eq_none_iff.mp hfault.symm]
      exact hprior
  | some own =>
      rw [hown] at hfault
      obtain ⟨own', hown', hmessage⟩ := Option.map_eq_some_iff.mp hfault.symm
      rw [hown']
      refine .some ?_
      cases hc : t.child? .prior with
      | none =>
          rw [hprior.eq_none_iff.mp hc]
          exact beq_history hmessage.symm trivial trivial rfl
      | some c =>
          obtain ⟨d, hd, hequal⟩ := hprior.exists_of_some hc
          rw [hd]
          exact beq_history hmessage.symm (ht.child? hc) (hu.child? hd) hequal

/-- A tree that a fault was injected into is no leaf. -/
theorem leafFault?_inject (fault : Fault) (t : FaultTree) :
    (t.inject fault).leafFault? = none := by
  rcases t with _ | _ | ⟨_ | _, _⟩ <;> exact leafFault?_ofParts _ _

/-- Equal faults make equal trees of equal trees. -/
theorem beq_inject (ht : Canonical t) (hu : Canonical u) (h : (t == u) = true)
    {fault fault' : Fault} (hfault : fault.message = fault'.message) :
    (t.inject fault == u.inject fault') = true := by
  refine (beq_iff (canonical_inject ht _) (canonical_inject hu _)).mpr ⟨?_, ?_, fun key => ?_⟩
  · rw [leafFault?_inject, leafFault?_inject]
  · rw [selfFault?_inject, selfFault?_inject]
    exact congrArg some hfault
  · by_cases hkey : key = .prior
    · rw [hkey, child?_prior_inject, child?_prior_inject]
      exact agree_past ht hu h
    · have hother : ∀ (v : FaultTree) (f : Fault), (v.inject f).child? key = v.child? key :=
        fun v f => child?_injectAll_of_ne v [f] hkey
      rw [hother, hother]
      exact ((beq_iff ht hu).mp h).2.2 key

end

/-! ### All together -/

/-- Lists that are the same up to order after a mapping match item by item in some order. -/
theorem exists_perm_of_perm_map {α β : Type} {f : α → β} {as bs : List α}
    (h : (as.map f).Perm (bs.map f)) :
    ∃ cs, cs.Perm bs ∧ List.Forall₂ (fun a c => f a = f c) as cs := by
  have hself : List.Forall₂ (fun x b => x = f b) (bs.map f) bs :=
    List.forall₂_map_left_iff.mpr (List.forall₂_same.mpr fun b _ => rfl)
  obtain ⟨cs, hcs, hperm⟩ := List.perm_comp_forall₂ h hself
  exact ⟨cs, hperm, List.forall₂_map_left_iff.mp hcs⟩

/-- What follows for trees that are equal. -/
structure EqualInAll (t u : FaultTree) : Prop where
  /-- Equal faults on top leave them equal. -/
  inject : ∀ fault fault' : Fault, fault.message = fault'.message →
    (t.inject fault == u.inject fault') = true
  /-- They lead to equal trees, or both to none. -/
  at? : ∀ path : FaultPath, Agree (t.at? path) (u.at? path)
  /-- Their faults are equal, at the same paths, up to the order of the lists. -/
  faults : ∃ found, found.Perm u.faults ∧
    List.Forall₂ (fun e e' => e.1 = e'.1 ∧ (e.2 == e'.2) = true) t.faults found
  /-- They have as many faults. -/
  len : t.len = u.len

/-- Equal canonical trees agree in everything that can be asked of them. -/
theorem equalInAll_of_beq {t u : FaultTree} (ht : Canonical t) (hu : Canonical u)
    (h : (t == u) = true) : EqualInAll t u where
  inject _ _ hfault := beq_inject ht hu h hfault
  at? := agree_at? ht hu h
  faults := by
    obtain ⟨found, hperm, hfound⟩ := exists_perm_of_perm_map (perm_messages_of_beq ht hu h)
    refine ⟨found, hperm, hfound.imp fun e e' hee' => ?_⟩
    obtain ⟨hpath, hmessage⟩ := Prod.mk.inj hee'
    exact ⟨hpath, beq_fault_iff.mpr hmessage⟩
  len := by
    rw [← length_faults, ← length_faults]
    simpa using (perm_messages_of_beq ht hu h).length_eq

/-- However trees were composed, their equality is an equivalence in which the order of children
does not count, and everything that is done with trees respects it. -/
theorem beq_congruence {a b c : FaultTree} (ha : Composed a) (hb : Composed b) (hc : Composed c) :
    (a == a) = true ∧ ((a == b) = true → (b == a) = true) ∧
    ((a == b) = true → (b == c) = true → (a == c) = true) ∧
    (∀ u, Reordered a u → (a == u) = true) ∧
    ((a == b) = true → EqualInAll a b) ∧
    ∀ (own own' : Option Fault) (cs cs' ds : List (FaultKey × FaultTree)),
      (own == own') = true → (Assoc.keys cs).Nodup → (∀ x ∈ cs, Composed x.2) →
      (∀ x ∈ ds, Composed x.2) → cs.Perm cs' → Matched cs' ds →
        (merge own cs == merge own' ds) = true := by
  refine ⟨beq_refl ha.canonical, beq_symm ha.canonical hb.canonical,
    beq_trans ha.canonical hb.canonical hc.canonical, fun u hu => (hu.beq ha.canonical).2,
    equalInAll_of_beq ha.canonical hb.canonical, ?_⟩
  intro own own' cs cs' ds hown hkeys hcs hds hperm hmatched
  exact beq_merge (beq_own_iff.mp hown) hkeys (fun x hx => (hcs x hx).canonical)
    (fun x hx => (hds x hx).canonical) hperm hmatched

/-- A marked tree with two faulty fields. -/
def givenUp : FaultTree :=
  merge (some ⟨.text "given up"⟩)
    [(.field "id", leaf (Fault.missing "id")), (.field "name", leaf ⟨.text "no name"⟩)]

/-- The fields in the other order, and one fault with another cause of the same wording. -/
def givenUpAgain : FaultTree :=
  merge (some ⟨.system "given up"⟩)
    [(.field "name", leaf ⟨.system "no name"⟩), (.field "id", leaf (Fault.missing "id"))]

/-- The tree can be composed. -/
theorem composed_givenUp : Composed givenUp := .pair (.leaf _) (.leaf _)

/-- So can the same tree with its children in another order. -/
theorem composed_givenUpAgain : Composed givenUpAgain := .pair (.leaf _) (.leaf _)

/-- The two are equal, and so is what is made of them. -/
theorem beq_congruence_givenUp :
    Composed givenUp ∧ Composed givenUpAgain ∧ (givenUp == givenUpAgain) = true ∧
      (givenUpAgain == givenUp) = true ∧ (givenUp == givenUp) = true ∧
      (givenUp.inject ⟨.text "late"⟩ == givenUpAgain.inject ⟨.system "late"⟩) = true ∧
      givenUp.len = givenUpAgain.len ∧
      (merge none [(.index 0, givenUp), (.index 1, leaf ⟨.text "bad"⟩)] ==
        merge none [(.index 1, leaf ⟨.text "bad"⟩), (.index 0, givenUpAgain)]) = true := by
  have hbeq : (givenUp == givenUpAgain) = true := rfl
  obtain ⟨-, hsymm, htrans, -, hall, hmerge⟩ :=
    beq_congruence composed_givenUp composed_givenUpAgain composed_givenUp
  refine ⟨composed_givenUp, composed_givenUpAgain, hbeq, hsymm hbeq, htrans hbeq (hsymm hbeq),
    (hall hbeq).inject _ _ rfl, (hall hbeq).len, ?_⟩
  exact hmerge none none _ _ _ rfl (by decide) (composed_givenUp.forall_mem_pair (.leaf _))
    ((Composed.leaf _).forall_mem_pair composed_givenUpAgain) (List.Perm.swap _ _ _)
    (.cons ⟨rfl, rfl⟩ (.cons ⟨rfl, hbeq⟩ .nil))

end Flowsheet.FaultTree
