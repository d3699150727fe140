import Flowsheet.Proofs.Build.Run
import Flowsheet.Proofs.Fault.Visit

/-!
# The trees that entities take over from their fields

The tree of a list has one child for each faulty element, under the element's place. `indexed` is
that list of children with the empty ones still in it, so its keys are the places in order
(`keys_indexed`); lists of parts and lists of plain values both come to it (`partFaultsFrom_eq`,
`merge_addedFaults`).

The tree of a record has one child for each faulty field, and what it has there is what the field
handed over (`subtree_toRecord`).
-/

namespace Flowsheet

namespace FaultTree

/-! ### Children by place -/

/-- Trees under their places; `offset` is the place of the first. -/
def indexed (offset : Nat) : List FaultTree → List (FaultKey × FaultTree)
  | [] => []
  | t :: rest => (.index offset, t) :: indexed (offset + 1) rest

/-- Trees under their places are those of the list, counted from the first place. -/
theorem indexed_eq_map (offset : Nat) (ts : List FaultTree) :
    indexed offset ts = (ts.zipIdx offset).map fun e => (.index e.2, e.1) := by
  induction ts generalizing offset with
  | nil => rfl
  | cons t rest ih => rw [indexed, ih]; rfl

/-- The keys are the places, counted from the offset. -/
theorem keys_indexed (offset : Nat) (ts : List FaultTree) :
    Assoc.keys (indexed offset ts) = (List.range' offset ts.length).map .index := by
  induction ts generalizing offset with
  | nil => rfl
  | cons t rest ih => rw [indexed, Assoc.keys_cons, ih]; rfl

/-- No two trees stand at one place. -/
theorem nodup_keys_indexed (offset : Nat) (ts : List FaultTree) :
    (Assoc.keys (indexed offset ts)).Nodup := by
  rw [keys_indexed]
  exact List.Pairwise.map _ (fun i j h heq => h (FaultKey.index.inj heq)) List.nodup_range'

/-- Every key is a place before the end of the list. -/
theorem exists_of_mem_keys_indexed {offset : Nat} {ts : List FaultTree} {key : FaultKey}
    (h : key ∈ Assoc.keys (indexed offset ts)) : ∃ i, i < offset + ts.length ∧ key = .index i := by
  rw [keys_indexed] at h
  obtain ⟨i, hi, hkey⟩ := List.mem_map.mp h
  exact ⟨i, (List.mem_range'_1.mp hi).2, hkey.symm⟩

/-- The trees come out as they went in. -/
theorem map_snd_indexed (offset : Nat) (ts : List FaultTree) :
    (indexed offset ts).map (·.2) = ts := by
  induction ts generalizing offset with
  | nil => rfl
  | cons t rest ih => rw [indexed, List.map_cons, ih]

/-- The places of a second list go on where those of the first end. -/
theorem indexed_append (offset : Nat) (ts us : List FaultTree) :
    indexed offset (ts ++ us) = indexed offset ts ++ indexed (offset + ts.length) us := by
  induction ts generalizing offset with
  | nil => rfl
  | cons t rest ih =>
      rw [List.cons_append, indexed, indexed, ih, List.length_cons, Nat.add_right_comm]
      rfl

/-- The tree of a list is empty just if the trees of all elements are. -/
theorem merge_indexed_eq_empty_iff {ι : Type} (offset : Nat) (items : List ι)
    (tree : ι → FaultTree) :
    merge none (indexed offset (items.map tree)) = .empty ↔ ∀ x ∈ items, tree x = .empty := by
  rw [merge_eq_empty_iff (nodup_keys_indexed _ _)]
  have hall : (∀ c ∈ indexed offset (items.map tree), c.2 = .empty) ↔
      ∀ u ∈ (indexed offset (items.map tree)).map (·.2), u = .empty := by
    rw [List.forall_mem_map]
  rw [hall, map_snd_indexed, List.forall_mem_map]
  simp

/-- The keys of a map stay different from each other as keys of a tree. -/
theorem nodup_keys_named {ι : Type} {entries : List (String × ι)}
    (h : (Assoc.keys entries).Nodup) {α : Type} (f : String × ι → α) :
    (Assoc.keys (entries.map fun x => (FaultKey.key x.1, f x))).Nodup := by
  rw [Assoc.keys_map]
  exact List.pairwise_map.mpr ((List.pairwise_map.mp h).imp fun hne heq =>
    hne (FaultKey.key.inj heq))

/-- All keys that come from a map are keys of maps. -/
theorem exists_of_mem_keys_named {ι : Type} {entries : List (String × ι)}
    {f : String × ι → FaultTree} {key : FaultKey}
    (h : key ∈ Assoc.keys (entries.map fun x => (FaultKey.key x.1, f x))) : ∃ k, key = .key k := by
  obtain ⟨c, hc, rfl⟩ := List.mem_map.mp h
  obtain ⟨x, -, rfl⟩ := List.mem_map.mp hc
  exact ⟨x.1, rfl⟩

/-- Dropping the empty trees before a merge makes no difference. -/
theorem merge_filter (own : Option Fault) (cs : List (FaultKey × FaultTree)) :
    merge own (cs.filter fun c => c.2.hasFaults) = merge own cs := by
  unfold merge
  rw [List.filter_filter]
  simp only [Bool.and_self]

end FaultTree

namespace ListSlot

open FaultTree

variable {α : Type}

/-- The trees of parts stand at their places, the empty ones included. -/
theorem partFaultsFrom_eq [HasFaults α] (offset : Nat) (parts : List α) :
    partFaultsFrom offset parts = indexed offset (parts.map HasFaults.faults) := by
  induction parts generalizing offset with
  | nil => rfl
  | cons part rest ih => rw [partFaultsFrom, ih]; rfl

/-- The tree of a single element. -/
def elementFaults (element : α × Option Fault) : FaultTree := (element.2.map leaf).getD .empty

/-- The trees of plain elements stand at their places, the empty ones left out. -/
theorem addedFaults_eq (offset : Nat) (added : List (α × Option Fault)) :
    addedFaults offset added =
      (indexed offset (added.map elementFaults)).filter fun c => c.2.hasFaults := by
  induction added generalizing offset with
  | nil => rfl
  | cons element rest ih =>
      obtain ⟨a, _ | fault⟩ := element
      · exact ih (offset + 1)
      · exact congrArg _ (ih (offset + 1))

/-- Since a merge drops empty trees, plain elements can be counted like parts. -/
theorem merge_addedFaults (own : Option Fault) (offset : Nat) (added : List (α × Option Fault)) :
    merge own (addedFaults offset added) =
      merge own (indexed offset (added.map elementFaults)) := by
  rw [addedFaults_eq, merge_filter]

end ListSlot

/-! ### Fields whose elements were given one by one -/

namespace Shape

open FaultTree ListSlot

/-- The tree of a list of plain values to which elements were added one by one. -/
theorem faults_elements {α : Type} (elements : List (α × Option Fault)) :
    (list α).faults ⟨[], .empty, elements⟩ =
      merge none (indexed 0 (elements.map elementFaults)) :=
  merge_addedFaults none 0 elements

/-- The tree of a list of parts to which parts were added one by one. -/
theorem faults_parts {α ι : Type} [HasFaults α] (f : ι → α) (items : List ι) :
    (parts α).faults ⟨[], .empty, items.map fun x => (f x, none)⟩ =
      merge none (indexed 0 (items.map fun x => HasFaults.faults (f x))) := by
  rw [faults, partFaults, partFaultsFrom_eq, values, List.nil_append,
    List.map_map, List.map_map]
  rfl

/-- The tree of a map of parts that were put one by one under different keys. -/
theorem faults_namedParts {α ι : Type} [HasFaults α] (f : ι → α)
    {entries : List (String × ι)} (h : (Assoc.keys entries).Nodup) :
    (namedParts α).faults
        ⟨[], .empty, Assoc.ofList (entries.map fun x => (x.1, f x.2)), []⟩ =
      merge none (entries.map fun x => (.key x.1, HasFaults.faults (f x.2))) := by
  have hkeys : (Assoc.keys (entries.map fun x => (x.1, f x.2))).Nodup := by
    rw [Assoc.keys_map_value]
    exact h
  rw [Assoc.ofList_of_nodup hkeys]
  show merge none ((Assoc.ofList _).map _) = _
  rw [Assoc.ofList_of_nodup hkeys, List.map_map]
  rfl

/-- The list holds the parts that were added, in order. -/
theorem content_parts {α ι : Type} [HasFaults α] (f : ι → α) (items : List ι) :
    (parts α).content ⟨[], .empty, items.map fun x => (f x, none)⟩ = items.map f := by
  rw [content, values, List.nil_append, List.map_map]
  rfl

/-- The map holds the parts that were put, in order. -/
theorem content_namedParts {α ι : Type} [HasFaults α] (f : ι → α) {entries : List (String × ι)}
    (h : (Assoc.keys entries).Nodup) :
    (namedParts α).content
        ⟨[], .empty, Assoc.ofList (entries.map fun x => (x.1, f x.2)), []⟩ =
      entries.map fun x => (x.1, f x.2) := by
  have hkeys : (Assoc.keys (entries.map fun x => (x.1, f x.2))).Nodup := by
    rw [Assoc.keys_map_value]
    exact h
  rw [Assoc.ofList_of_nodup hkeys]
  exact Assoc.ofList_of_nodup hkeys

end Shape

/-! ### Children by field -/

namespace Layout

variable (L : Layout)

/-- Trees of the fields under their names. -/
def fieldTrees (trees : L.Field → FaultTree) : List (FaultKey × FaultTree) :=
  L.fields.map fun f => (L.key f, trees f)

/-- No two fields of an entity have their trees under one key. -/
theorem nodup_keys_fieldTrees (trees : L.Field → FaultTree) :
    (Assoc.keys (L.fieldTrees trees)).Nodup := by
  unfold Assoc.keys fieldTrees
  rw [List.map_map]
  refine List.Pairwise.map _ (fun f g hne heq => hne ?_) L.nodup_fields
  exact L.name_injective f g (FaultKey.field.inj heq)

/-- Every field has its tree under its own key. -/
theorem mem_fieldTrees (trees : L.Field → FaultTree) (f : L.Field) :
    (L.key f, trees f) ∈ L.fieldTrees trees :=
  List.mem_map.mpr ⟨f, L.mem_fields f, rfl⟩

end Layout

namespace Builder

variable {L : Layout}

/-- What a record's tree has at a field is what the field handed over. -/
theorem subtree_toRecord (b : Builder L) (f : L.Field) :
    b.toRecord.faults.subtree (L.name f) = (L.shape f).faults (b.slot f) :=
  FaultTree.subtree_merge (L.nodup_keys_fieldTrees _) (L.mem_fieldTrees _ f)

end Builder

namespace Shape

/-- A field that no call has touched has no fault yet. -/
theorem faults_unset (s : Shape) : s.faults s.unset = .empty := by
  cases s <;> rfl

/-- A required field without a call ends up with the fault that it is missing. -/
theorem faults_settled_of_isMissing (key : FaultKey) {s : Shape} {slot : s.Slot}
    (h : s.isMissing slot = true) :
    s.faults (s.settled key slot) = .leaf (Fault.missing key.text) := by
  cases s with
  | required _ | requiredPart _ =>
      rw [settled, if_pos (by simpa [isMissing] using h)]
      rfl
  | optional _ | optionalPart _ | list _ | parts _ | namedParts _ => cases h

/-- A field that no call has touched ends up as in a placeholder. -/
theorem content_settled_unset (key : FaultKey) (s : Shape) :
    s.content (s.settled key s.unset) = s.blank := by
  cases s <;> rfl

/-- A field without any call: if it is required it is missing, else it has no fault. -/
theorem faults_settled_unset (key : FaultKey) (s : Shape) :
    s.faults (s.settled key s.unset) =
      if s.isRequired then .leaf (Fault.missing key.text) else .empty := by
  cases s <;> rfl

end Shape

/-- The record about which nothing is known is what a build without any call gives. -/
theorem Record.placeholder_eq (L : Layout) :
    Record.placeholder L = (Builder.new L .tolerant).settled.toRecord := by
  have hchildren : ((L.fields.filter fun f => (L.shape f).isRequired).map L.name).map
      (fun name => (FaultKey.field name, FaultTree.leaf (Fault.missing name))) =
        (L.fields.map fun f => (L.key f, (L.shape f).faults
          ((L.shape f).settled (L.key f) (L.shape f).unset))).filter fun c => c.2.hasFaults := by
    induction L.fields with
    | nil => rfl
    | cons f rest ih =>
        rw [List.map_cons, List.filter_cons, List.filter_cons, Shape.faults_settled_unset, ← ih]
        cases (L.shape f).isRequired <;> rfl
  have hfaults : (Record.placeholder L).faults =
      (Builder.new L .tolerant).settled.toRecord.faults := by
    show FaultTree.merge none (((L.fields.filter _).map L.name).map _) = _
    rw [hchildren, FaultTree.merge_filter]
    rfl
  have hget : (Record.placeholder L).get = (Builder.new L .tolerant).settled.toRecord.get := by
    funext f
    exact (Shape.content_settled_unset (L.key f) (L.shape f)).symm
  calc Record.placeholder L = ⟨(Record.placeholder L).get, (Record.placeholder L).faults⟩ := rfl
    _ = (Builder.new L .tolerant).settled.toRecord := by rw [hget, hfaults]

end Flowsheet
