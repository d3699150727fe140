import Flowsheet.Proofs.Build.Trees
import Flowsheet.Proofs.Views

/-!
# Fields and their trees

`Shape.Coherent` says how the tree that an entity has at a field goes with what the field holds: a
single part has its own tree there, a list or map of parts has exactly the trees of its faulty
elements there, and a list of plain values has only places of the list there.

`Shape.Sound` is what a builder keeps of this while it is being fed. Setter calls preserve it
(`Sound.applied`), a field that is taken over from a coherent entity has it (`Sound.copied`), and a
field that has it is coherent once it is finished (`Sound.coherent`).
-/

namespace Flowsheet

open FaultTree

/-! ### Faulty elements -/

namespace HasFaults

variable {α : Type} [HasFaults α]

/-- The faulty items of a list are what is left of all items' trees without the empty ones. -/
theorem filter_indexed (offset : Nat) (items : List α) :
    (indexed offset (items.map faults)).filter (fun c => c.2.hasFaults) =
      (faultyFrom offset items).map fun e => (.index e.1, faults e.2) := by
  induction items generalizing offset with
  | nil => rfl
  | cons a rest ih =>
      rw [List.map_cons, indexed, List.filter_cons, ih, faultyFrom]
      show (if isFaulty a then _ else _) = _
      split <;> rfl

/-- The trees with faults are those of the faulty entries. -/
theorem filter_entries (entries : List (String × α)) :
    (entries.map fun e => (FaultKey.key e.1, faults e.2)).filter (fun c => c.2.hasFaults) =
      (faultyEntries entries).map fun e => (.key e.1, faults e.2) := by
  rw [List.filter_map]
  rfl

end HasFaults

namespace FaultTree

/-- At a place stands the tree of the element there. -/
theorem get?_indexed (offset i : Nat) (ts : List FaultTree) :
    Assoc.get? (.index (offset + i)) (indexed offset ts) = ts[i]? := by
  induction ts generalizing offset i with
  | nil => rfl
  | cons t rest ih =>
      rw [indexed, Assoc.get?_cons]
      cases i with
      | zero => rw [Nat.add_zero, if_pos rfl]; rfl
      | succ i =>
          have hne : FaultKey.index offset ≠ .index (offset + (i + 1)) := by
            simp only [ne_eq, FaultKey.index.injEq]
            omega
          rw [if_neg hne, show offset + (i + 1) = offset + 1 + i by omega, ih]
          rfl

/-- Under a key stands what is computed from the entry of that key. -/
theorem get?_named {ι : Type} (k : String) (entries : List (String × ι)) (f : ι → FaultTree) :
    Assoc.get? (.key k) (entries.map fun e => (FaultKey.key e.1, f e.2)) =
      (Assoc.get? k entries).map f := by
  induction entries with
  | nil => rfl
  | cons e rest ih =>
      obtain ⟨j, a⟩ := e
      rw [List.map_cons, Assoc.get?_cons, Assoc.get?_cons, ih]
      by_cases hjk : j = k
      · rw [if_pos (congrArg FaultKey.key hjk), if_pos hjk]
        rfl
      · rw [if_neg fun heq => hjk (FaultKey.key.inj heq), if_neg hjk]

end FaultTree

/-! ### Coherence -/

namespace Shape

/-- The tree at a field goes with the content of the field.
* A single part's tree is the part's own.
* Below a list of plain values there are only places of the list.
* Below a list of parts there is, for each faulty part and for nothing else, the part's own tree
  under the part's place, in the order in which the faulty parts are listed.
* The same holds for the entries of a map, under their keys. -/
def Coherent : (s : Shape) → s.Content → FaultTree → Prop
  | required _, _, _ | optional _, _, _ => True
  | @requiredPart _ _, c, t | @optionalPart _ _, c, t =>
    ∀ a, c = some a → t = HasFaults.faults a ∧ HasFaults.isFaulty a = t.hasFaults
  | list _, items, t => ∀ key ∈ Assoc.keys t.children, ∃ i, i < items.length ∧ key = .index i
  | @parts _ _, items, t =>
    (∀ key, t.child? key = match key with
      | .index i => (items[i]?.filter HasFaults.isFaulty).map HasFaults.faults
      | _ => none) ∧
    t.children = (HasFaults.faultyItems items).map fun e => (.index e.1, HasFaults.faults e.2)
  | @namedParts _ _, entries, t =>
    (Assoc.keys entries).Nodup ∧
    (∀ key, t.child? key = match key with
      | .key k => ((Assoc.get? k entries).filter HasFaults.isFaulty).map HasFaults.faults
      | _ => none) ∧
    t.children = (HasFaults.faultyEntries entries).map fun e => (.key e.1, HasFaults.faults e.2)

/-- A field about which nothing is known: where it need not be there it has no tree. -/
theorem coherent_blank {s : Shape} {t : FaultTree} (h : s.isRequired = false → t = .empty) :
    s.Coherent s.blank t := by
  cases s with
  | required _ | optional _ => trivial
  | requiredPart _ | optionalPart _ =>
      intro a ha
      cases ha
  | list _ =>
      rw [h rfl]
      intro key hkey
      cases hkey
  | parts _ =>
      rw [h rfl]
      exact ⟨fun key => by cases key <;> rfl, rfl⟩
  | namedParts _ =>
      rw [h rfl]
      exact ⟨List.nodup_nil, fun key => by cases key <;> rfl, rfl⟩

/-- A faulty member shows in the tree of its field. -/
theorem Coherent.ne_empty {s : Shape} {types : List EntityType} {view : s.PartView}
    (hview : PartView.Lawful types s view) {content : s.Content} {t : FaultTree}
    (h : s.Coherent content t) {x : AnyEntity} (hx : x ∈ s.members view content)
    (hfaults : x.faults.hasFaults = true) :
    t ≠ .empty := by
  cases s with
  | required _ | optional _ | list _ => cases hx
  | requiredPart _ | optionalPart _ =>
      obtain ⟨a, ha, rfl⟩ := List.mem_map.mp hx
      rw [(h a (Option.mem_toList.mp ha)).1]
      rwa [hview.faults_view, hasFaults_iff] at hfaults
  | parts _ =>
      obtain ⟨a, ha, rfl⟩ := List.mem_map.mp hx
      have hfaulty : HasFaults.isFaulty a = true := by rwa [hview.faults_view] at hfaults
      obtain ⟨i, hi⟩ := List.mem_iff_getElem?.mp ha
      have hchild : t.child? (.index i) =
          (content[i]?.filter HasFaults.isFaulty).map HasFaults.faults := h.1 (.index i)
      rw [hi, Option.filter_some, if_pos hfaulty] at hchild
      rintro rfl
      cases hchild
  | namedParts _ =>
      obtain ⟨⟨k, a⟩, he, rfl⟩ := List.mem_map.mp hx
      have hfaulty : HasFaults.isFaulty a = true := by rwa [hview.faults_view] at hfaults
      have hchild : t.child? (.key k) =
          ((Assoc.get? k content).filter HasFaults.isFaulty).map HasFaults.faults := h.2.1 (.key k)
      rw [(Assoc.get?_eq_some_iff h.1).mpr he, Option.filter_some, if_pos hfaulty] at hchild
      rintro rfl
      cases hchild

/-! ### Soundness of slots -/

/-- What a builder keeps of coherence: the tree of a single part is the part's own, below the tree
that came with a list as a whole there are only places of that list, and a map that was given as a
whole has distinct keys. -/
def Sound : (s : Shape) → s.Slot → Prop
  | required _, _ | optional _, _ => True
  | @requiredPart _ _, slot | @optionalPart _ _, slot =>
    ∀ a, slot.value = some a → slot.faults = HasFaults.faults a
  | list _, slot =>
    ∀ key ∈ Assoc.keys slot.bulkFaults.children, ∃ i, i < slot.bulk.length ∧ key = .index i
  | @parts _ _, _ => True
  | @namedParts _ _, slot => (Assoc.keys slot.bulk).Nodup

/-- A map that a call gives as a whole has distinct keys. -/
def CallDistinct : (s : Shape) → s.Call → Prop
  | @namedParts _ _, .setAll es => (Assoc.keys es).Nodup
  | @namedParts _ _, .supplyAll given fallback =>
    (∀ es, given = .ok es → (Assoc.keys es).Nodup) ∧ (Assoc.keys fallback).Nodup
  | _, _ => True

/-- An untouched field is sound. -/
theorem Sound.unset (s : Shape) : s.Sound s.unset := by
  cases s with
  | required _ | optional _ | parts _ => trivial
  | requiredPart _ | optionalPart _ =>
      intro a ha
      cases ha
  | list _ =>
      intro key hkey
      cases hkey
  | namedParts _ => exact List.nodup_nil

/-- A field that is taken over from a coherent entity is sound. -/
theorem Sound.copied {s : Shape} {c : s.Content} {t : FaultTree} (h : s.Coherent c t) :
    s.Sound (s.copied c t) := by
  cases s with
  | required _ | optional _ | parts _ => trivial
  | requiredPart _ | optionalPart _ => exact fun a ha => (h a ha).1
  | list _ => exact h
  | namedParts _ => exact h.1

/-- The end of a build keeps a field sound. -/
theorem Sound.settled {s : Shape} {slot : s.Slot} (h : s.Sound slot) (key : FaultKey) :
    s.Sound (s.settled key slot) := by
  cases hm : s.isMissing slot with
  | false => rwa [settled_of_not_isMissing key hm]
  | true =>
      cases s with
      | required _ => trivial
      | requiredPart _ =>
          rw [Shape.settled, if_pos (by simpa [isMissing] using hm)]
          intro a ha
          cases ha
      | optional _ | optionalPart _ | list _ | parts _ | namedParts _ => cases hm

/-- Setter calls keep a field sound, whatever they supply. -/
theorem Sound.applied {s : Shape} {slot : s.Slot} (h : s.Sound slot) {c : s.Call}
    (hc : s.CallDistinct c) : s.Sound (s.applied c slot) := by
  cases s with
  | required _ | optional _ | parts _ => trivial
  | requiredPart _ =>
      intro a ha
      rcases c with v | ⟨e | v, _ | fallback⟩ <;> cases ha <;> rfl
  | optionalPart _ =>
      intro a ha
      rcases c with v | ⟨e | _ | v, _ | fallback⟩ <;> cases ha <;> rfl
  | list _ =>
      -- a whole list comes without trees of elements, single elements leave it as it was
      rcases c with vs | ⟨e | vs, fallback⟩ | v | ⟨e | v, fallback⟩
      · intro key hkey
        cases hkey
      · intro key hkey
        cases hkey
      · intro key hkey
        cases hkey
      · exact h
      · exact h
      · exact h
  | namedParts _ =>
      rcases c with es | ⟨e | es, fallback⟩ | ⟨k, v⟩ | ⟨k, e | v, fallback⟩
      · exact hc
      · exact hc.2
      · exact hc.1 es rfl
      · exact h
      · exact h
      · exact h

/-- The tree of a part that may be there counts just if the part is faulty. -/
theorem filter_map_faults {α : Type} [HasFaults α] (o : Option α) :
    (o.map HasFaults.faults).filter (·.hasFaults) =
      (o.filter HasFaults.isFaulty).map HasFaults.faults := by
  cases o with
  | none => rfl
  | some a =>
      rw [Option.map_some, Option.filter_some, Option.filter_some]
      show (if HasFaults.isFaulty a then _ else _) = _
      split <;> rfl

/-- A finished list of plain values: below it there are only places of the list. -/
theorem coherent_list {α : Type} {slot : ListSlot α} (h : (list α).Sound slot) :
    (list α).Coherent ((list α).content slot) ((list α).faults slot) := by
  intro key hkey
  obtain ⟨⟨_, t⟩, hmem, rfl⟩ := List.mem_map.mp hkey
  have hlength : (slot.bulk ++ slot.added.map (·.1)).length =
      slot.bulk.length + slot.added.length := by simp
  rcases List.mem_append.mp (mem_children_merge hmem).1 with hbulk | hadded
  · obtain ⟨i, hi, hkey⟩ := h _ (Assoc.mem_keys_of_mem hbulk)
    exact ⟨i, Nat.lt_of_lt_of_le hi (hlength ▸ Nat.le_add_right _ _), hkey⟩
  · rw [ListSlot.addedFaults_eq] at hadded
    have hindex := Assoc.mem_keys_of_mem (List.mem_filter.mp hadded).1
    obtain ⟨i, hi, hkey⟩ := exists_of_mem_keys_indexed hindex
    rw [List.length_map] at hi
    exact ⟨i, hlength ▸ hi, hkey⟩

variable {α : Type} [HasFaults α]

/-- A finished list of parts, however its parts were given. -/
theorem coherent_parts (slot : ListSlot α) :
    (parts α).Coherent ((parts α).content slot) ((parts α).faults slot) := by
  have hkeys := nodup_keys_indexed 0 (slot.values.map HasFaults.faults)
  have hchildren : ((parts α).faults slot).children =
      (indexed 0 (slot.values.map HasFaults.faults)).filter fun c => c.2.hasFaults := by
    rw [← children_merge_of_nodup slot.bulkFaults.fault? hkeys, ← ListSlot.partFaultsFrom_eq]
    rfl
  constructor
  · intro key
    unfold child?
    rw [hchildren, Assoc.get?_filter _ hkeys]
    cases key with
    | index i =>
        have hget := get?_indexed 0 i (slot.values.map HasFaults.faults)
        rw [Nat.zero_add] at hget
        rw [hget, List.getElem?_map]
        exact filter_map_faults _
    | field name | key k | prior =>
        rw [Assoc.get?_eq_none_iff.mpr fun hmem => ?_]
        · rfl
        · obtain ⟨i, -, hi⟩ := exists_of_mem_keys_indexed hmem
          cases hi
  · rw [hchildren]
    exact HasFaults.filter_indexed 0 slot.values

/-- A finished map of parts. -/
theorem coherent_namedParts {slot : MapSlot α} (h : (namedParts α).Sound slot) :
    (namedParts α).Coherent ((namedParts α).content slot) ((namedParts α).faults slot) := by
  have hentries : (Assoc.keys slot.entries).Nodup := Assoc.nodup_keys_extend h
  have hkeys := nodup_keys_named hentries fun e => HasFaults.faults e.2
  have hchildren : ((namedParts α).faults slot).children =
      (slot.entries.map fun e => (FaultKey.key e.1, HasFaults.faults e.2)).filter
        fun c => c.2.hasFaults :=
    children_merge_of_nodup slot.bulkFaults.fault? hkeys
  refine ⟨hentries, ?_, ?_⟩
  · intro key
    unfold child?
    rw [hchildren, Assoc.get?_filter _ hkeys]
    cases key with
    | key k =>
        rw [get?_named]
        exact filter_map_faults _
    | field name | index i | prior =>
        rw [Assoc.get?_eq_none_iff.mpr fun hmem => ?_]
        · rfl
        · obtain ⟨k, hk⟩ := exists_of_mem_keys_named hmem
          cases hk
  · rw [hchildren]
    exact HasFaults.filter_entries _

/-- A finished field is coherent. -/
theorem Sound.coherent {s : Shape} {slot : s.Slot} (h : s.Sound slot) :
    s.Coherent (s.content slot) (s.faults slot) := by
  cases s with
  | required _ | optional _ => trivial
  | requiredPart _ | optionalPart _ =>
      intro a ha
      refine ⟨h a ha, ?_⟩
      show HasFaults.isFaulty a = slot.faults.hasFaults
      rw [h a ha]
      rfl
  | list _ => exact coherent_list h
  | parts _ => exact coherent_parts slot
  | namedParts _ => exact coherent_namedParts h

end Shape

end Flowsheet
