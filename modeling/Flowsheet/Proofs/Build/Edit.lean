import Flowsheet.Proofs.Build.Copy
import Flowsheet.Proofs.Build.Order

/-!
# Copies that are edited

A builder that goes on from a finished entity refuses no call and always finishes. Fields without
any call keep their value and their tree. A list that is only given more elements keeps those it had in
front, and a map into which entries are only put keeps all entries of other keys where they stand;
both keep the trees of what they keep, and their own fault (`edited_copy_keeps`).

What such a field has after the calls is made of what was taken over as a whole, which the calls do
not touch (`sameWhole_after_members`), and of what they added. For parts both trees follow from the
contents, since both fields are coherent. A list of plain values has its trees apart from its
elements; there the added ones stand under places behind the list (`le_of_mem_keys_addedFaults`).
-/

namespace Flowsheet

open FaultTree

namespace FaultTree

/-- Trees under other keys make no difference to a child. -/
theorem child?_merge_append_of_not_mem (own : Option Fault) {cs more : List (FaultKey × FaultTree)}
    {key : FaultKey} (h : key ∉ Assoc.keys more) :
    (merge own (cs ++ more)).child? key = (merge own cs).child? key := by
  have hmore : (merge own more).child? key = none := by
    unfold child?
    rw [Assoc.get?_eq_none_iff]
    intro hmem
    obtain ⟨c, hc, rfl⟩ := List.mem_map.mp hmem
    exact h (Assoc.mem_keys_of_mem (mem_children_merge hc).1)
  rw [child?_merge_append, hmore, Option.none_or]

/-- A record's tree has a child for each field whose tree is not empty. -/
theorem field?_merge_fieldTrees {L : Layout} (trees : L.Field → FaultTree) (f : L.Field) :
    (merge none (L.fieldTrees trees)).field? (L.name f) =
      (some (trees f)).filter fun t => t.hasFaults :=
  child?_merge_of_mem (L.nodup_keys_fieldTrees trees) (L.mem_fieldTrees trees f)

/-- A mark changes no field. -/
theorem field?_unmarked (t : FaultTree) (name : String) :
    t.unmarked.field? name = t.field? name := by
  unfold unmarked field? child?
  rw [children_ofParts, Assoc.get?_erase, if_neg nofun]

end FaultTree

/-- Elements that are added have their faults behind the offset. -/
theorem ListSlot.le_of_mem_keys_addedFaults {α : Type} {offset i : Nat}
    {added : List (α × Option Fault)} (h : .index i ∈ Assoc.keys (addedFaults offset added)) :
    offset ≤ i := by
  induction added generalizing offset with
  | nil => cases h
  | cons element rest ih =>
      obtain ⟨a, _ | fault⟩ := element
      · exact Nat.le_of_succ_le (ih h)
      · rcases List.mem_cons.mp h with heq | hrest
        · exact Nat.le_of_eq (FaultKey.index.inj heq).symm
        · exact Nat.le_of_succ_le (ih hrest)

namespace Shape

/-! ### Calls about single members -/

/-- Calls about members leave the whole as it is. -/
theorem sameWhole_after_members {s : Shape} (slot : s.Slot) {cs : List s.Call}
    (h : ∀ c ∈ cs, s.isWhole c = false) : s.SameWhole (s.after slot cs) slot := by
  have hnone : cs.filter s.isWhole = [] :=
    List.filter_eq_nil_iff.mpr fun c hc => by rw [h c hc]; exact Bool.false_ne_true
  have hlast := sameWhole_after slot cs
  rwa [hnone] at hlast

/-- How a field and its tree go on from what they were, after calls about single members of it.
* A single value, about which there are no such calls, is the same and has the same tree.
* A list begins with what it was; the elements in front have the same trees.
* In a map all entries whose keys were not put stand where they stood, with the same trees. -/
def GoesOn : (s : Shape) → List s.Call → s.Content → FaultTree → s.Content → FaultTree → Prop
  | required _, _, old, t, new, u | optional _, _, old, t, new, u
  | @requiredPart _ _, _, old, t, new, u | @optionalPart _ _, _, old, t, new, u =>
    new = old ∧ u = t
  | list _, _, old, t, new, u | @parts _ _, _, old, t, new, u =>
    old <+: new ∧ u.fault? = t.fault? ∧
      ∀ i, i < old.length → u.child? (.index i) = t.child? (.index i)
  | @namedParts _ _, cs, old, t, new, u =>
    u.fault? = t.fault? ∧
      ∀ (i : Nat) k v, old[i]? = some (k, v) → k ∉ cs.filterMap MapCall.putKey? →
        new[i]? = some (k, v) ∧ u.child? (.key k) = t.child? (.key k)

/-- A list of plain values goes on from what it was if no call is about the whole. -/
theorem goesOn_list {α : Type} {items : List α} {t : FaultTree}
    (hcopied : (list α).faults (.copied items t) = t) {slot : ListSlot α}
    (hwhole : (list α).SameWhole slot (.copied items t)) (cs : List (ListCall α)) :
    (list α).GoesOn cs items t ((list α).content slot) ((list α).faults slot) := by
  obtain ⟨bulk, bulkFaults, added⟩ := slot
  obtain ⟨rfl, rfl⟩ := hwhole
  refine ⟨List.prefix_append _ _, fault?_merge _ _, fun i hi => ?_⟩
  have hnot : .index i ∉ Assoc.keys (ListSlot.addedFaults bulk.length added) := fun hmem =>
    Nat.not_le_of_lt hi (ListSlot.le_of_mem_keys_addedFaults hmem)
  calc (merge bulkFaults.fault? (bulkFaults.children ++
        ListSlot.addedFaults bulk.length added)).child? (.index i)
      = (merge bulkFaults.fault? bulkFaults.children).child? (.index i) :=
        child?_merge_append_of_not_mem _ hnot
    _ = (merge bulkFaults.fault? (bulkFaults.children ++ [])).child? (.index i) := by
        rw [List.append_nil]
    _ = bulkFaults.child? (.index i) := congrArg (child? (.index i)) hcopied

section

variable {α : Type} [HasFaults α]

/-- A list of parts goes on from what it was if no call is about the whole. -/
theorem goesOn_parts {items : List α} {t : FaultTree} (hcoherent : (parts α).Coherent items t)
    {slot : ListSlot α} (hwhole : (parts α).SameWhole slot (.copied items t))
    (cs : List (ListCall α)) :
    (parts α).GoesOn cs items t ((parts α).content slot) ((parts α).faults slot) := by
  have hnew := (coherent_parts slot).1
  obtain ⟨bulk, bulkFaults, added⟩ := slot
  obtain ⟨rfl, rfl⟩ := hwhole
  refine ⟨List.prefix_append _ _, fault?_merge _ _, fun i hi => ?_⟩
  rw [hnew (.index i), hcoherent.1 (.index i)]
  show (((bulk ++ added.map (·.1))[i]?.filter _).map _ : Option FaultTree) = _
  rw [List.getElem?_append_left hi]

/-- A map of parts goes on from what it was if no call is about the whole. -/
theorem goesOn_namedParts {entries : List (String × α)} {t : FaultTree}
    (hcoherent : (namedParts α).Coherent entries t) {cs : List (MapCall α)}
    (hwhole : (namedParts α).SameWhole ((namedParts α).after (.copied entries t) cs)
      (.copied entries t)) :
    (namedParts α).GoesOn cs entries t
      ((namedParts α).content ((namedParts α).after (.copied entries t) cs))
      ((namedParts α).faults ((namedParts α).after (.copied entries t) cs)) := by
  have hput := put_after (MapSlot.copied entries t) cs
  generalize (namedParts α).after (.copied entries t) cs = slot at hwhole hput ⊢
  have hbulk : slot.bulk = entries := hwhole.1
  have hsound : (namedParts α).Sound slot := by
    show (Assoc.keys slot.bulk).Nodup
    rw [hbulk]
    exact hcoherent.1
  have hnew := (coherent_namedParts hsound).2.1
  have hentries : slot.entries = Assoc.extend entries (cs.filterMap MapCall.write?) := by
    unfold MapSlot.entries
    rw [hbulk, hput]
    exact Assoc.extend_ofList _ _
  refine ⟨?_, fun i k v hold hk => ?_⟩
  · exact (fault?_merge _ _).trans (congrArg fault? hwhole.2)
  · rw [← MapCall.keys_writes] at hk
    have hplace : slot.entries[i]? = some (k, v) := by
      rw [hentries]
      exact Assoc.getElem?_extend_of_not_mem hk hold
    refine ⟨hplace, ?_⟩
    have hnodup : (Assoc.keys slot.entries).Nodup := (coherent_namedParts hsound).1
    have holdTree : t.child? (.key k) =
        ((Assoc.get? k entries).filter HasFaults.isFaulty).map HasFaults.faults :=
      hcoherent.2.1 (.key k)
    have hnewTree : ((namedParts α).faults slot).child? (.key k) =
        ((Assoc.get? k slot.entries).filter HasFaults.isFaulty).map HasFaults.faults :=
      hnew (.key k)
    rw [hnewTree, holdTree, (Assoc.get?_eq_some_iff hnodup).mpr (List.mem_of_getElem? hplace),
      (Assoc.get?_eq_some_iff hcoherent.1).mpr (List.mem_of_getElem? hold)]

end

/-- Calls about members of a field that was taken over. -/
theorem goesOn_after {s : Shape} {c : s.Content} {t : FaultTree} (hcoherent : s.Coherent c t)
    (hcopied : s.faults (s.copied c t) = t) {cs : List s.Call}
    (h : ∀ c ∈ cs, s.isWhole c = false) :
    s.GoesOn cs c t (s.content (s.after (s.copied c t) cs))
      (s.faults (s.after (s.copied c t) cs)) := by
  have hwhole := sameWhole_after_members (s.copied c t) h
  cases s with
  | required _ | optional _ | requiredPart _ | optionalPart _ =>
      rw [show Shape.after _ _ cs = _ from hwhole]
      exact ⟨content_copied _ _ _, hcopied⟩
  | list _ => exact goesOn_list hcopied hwhole cs
  | parts _ => exact goesOn_parts hcoherent hwhole cs
  | namedParts _ => exact goesOn_namedParts hcoherent hwhole

end Shape

/-- The tree of a field is a child of the entity's tree unless it is empty. -/
theorem AnyEntity.IsCopied.field? {x : AnyEntity} (h : x.IsCopied) (f : x.1.layout.Field) :
    x.faults.field? (x.1.layout.name f) =
      (some (x.faults.subtree (x.1.layout.name f))).filter fun t => t.hasFaults := by
  rw [← field?_unmarked, h.unmarked_eq, field?_merge_fieldTrees]

/-- Any calls to a builder that goes on from an entity that can be made. All of them are accepted,
and the build succeeds. Every field without a call has the same value and the same tree as in the
entity, and every field all of whose calls are about single members goes on from what it was. -/
theorem edited_copy_keeps {x : AnyEntity} (h : Reachable x)
    (calls : List (Builder.Call x.1.layout)) :
    ∃ b r, (Builder.ofRecord x.2).run calls = .ok b ∧ b.build = .ok r ∧
      (∀ f, (∀ c ∈ calls, c.field ≠ f) → r.get f = x.2.get f ∧
        r.faults.field? (x.1.layout.name f) = x.faults.field? (x.1.layout.name f)) ∧
      ∀ f, (∀ c ∈ Builder.callsTo f calls, (x.1.layout.shape f).isWhole c = false) →
        (x.1.layout.shape f).GoesOn (Builder.callsTo f calls)
          (x.2.get f) (x.faults.subtree (x.1.layout.name f))
          (r.get f) (r.faults.subtree (x.1.layout.name f)) := by
  have hcopied := h.isCopied
  refine ⟨_, _, Builder.run_tolerant rfl calls, Builder.build_attempts_ofRecord x.2 calls,
    fun f hf => ?_, fun f hf => ?_⟩
  · have hslot : ((Builder.ofRecord x.2).attempts calls).slot f = (Builder.ofRecord x.2).slot f :=
      Builder.slot_attempts_of_not_called rfl hf
    constructor
    · show (x.1.layout.shape f).content (((Builder.ofRecord x.2).attempts calls).slot f) = _
      rw [hslot]
      exact Shape.content_copied _ _ _
    · rw [hcopied.field?, ← hcopied.faults_copied f, ← hslot]
      exact field?_merge_fieldTrees _ f
  · rw [Builder.subtree_toRecord]
    show (x.1.layout.shape f).GoesOn _ _ _
      ((x.1.layout.shape f).content (((Builder.ofRecord x.2).attempts calls).slot f)) _
    rw [Builder.slot_attempts rfl]
    exact Shape.goesOn_after (h.invariant.1 f) (hcopied.faults_copied f) hf

/-- A node that has fallen back bounds and a port about which nothing is known, and was marked. -/
def portedNode : AnyEntity :=
  AnyEntity.mark ⟨.text "unreadable"⟩
    ⟨.node, ((Builder.new Node.layout .tolerant).attempts faultyNodeCalls).settled.toRecord⟩

/-- The node with a port can be made. -/
theorem reachable_portedNode : Reachable portedNode := by
  refine (Reachable.built (t := .node) .tolerant faultyNodeCalls (fun c _ => ?_)
    (fun c hc x hx => reachable_given_of_mem_faultyNodeCalls hc hx)
    (Builder.build_tolerant rfl)).marked _
  obtain ⟨f, setter⟩ := c
  cases f <;> trivial

/-- One more port is added to it, which could not be read, and its name is set. -/
def portedNodeEdits : List (Builder.Call portedNode.1.layout) :=
  [⟨Node.Field.inPorts, .supplyOne (.error (.text "no port")) (Entity.placeholder Port)⟩,
    ⟨Node.Field.name, .set "Reader"⟩]

/-- The bounds and the first port are as they were. -/
theorem edited_copy_keeps_portedNode :
    Reachable portedNode ∧ ∃ b, ∃ r : Record Node.layout,
      (Builder.ofRecord portedNode.2).run portedNodeEdits = .ok b ∧ b.build = .ok r ∧
      r.get .bounds = portedNode.2.get Node.Field.bounds ∧
      r.faults.field? "bounds" = portedNode.faults.field? "bounds" ∧
      portedNode.2.get Node.Field.inPorts <+: r.get .inPorts ∧
      (r.faults.subtree "in_ports").child? (.index 0) =
        (portedNode.faults.subtree "in_ports").child? (.index 0) := by
  obtain ⟨b, r, hrun, hbuild, huntouched, hgoesOn⟩ :=
    edited_copy_keeps reachable_portedNode portedNodeEdits
  have hbounds := huntouched Node.Field.bounds fun c hc => by
    rcases List.mem_cons.mp hc with rfl | hc
    · exact nofun
    · obtain rfl := List.mem_singleton.mp hc
      exact nofun
  have hports := hgoesOn Node.Field.inPorts fun c hc => by
    obtain rfl := List.mem_singleton.mp hc
    rfl
  exact ⟨reachable_portedNode, b, r, hrun, hbuild, hbounds.1, hbounds.2, hports.1,
    hports.2.2 0 Nat.zero_lt_one⟩

end Flowsheet
