import Flowsheet.Proofs.Build.Atomic
import Flowsheet.Proofs.Build.Coherence
import Flowsheet.Proofs.Build.Order
import Flowsheet.Proofs.Fault.Composed

/-!
# Lists after any calls

Calls about a list as a whole and calls about single elements can be made in any order. The finished
list has the list of the last call about the whole in front and one element for each call about a
single one behind it, in the order of the calls. The field's own fault is the one for which the last
whole fell back. Below it a list of plain values has the faults of the single elements under their
final places, and a list of parts has the parts' own trees (`list_run`).

A call is one of two things, the whole that it stores (`ListCall.whole?`) or the element
(`ListCall.element?`). The first replaces what is stored of the whole and the second appends, so a
run ends with the last whole and all elements (`ListSlot.foldl_eq`); for plain values and for parts
this differs only in what is kept of an element that fell back.

Final places are counted from the end of the whole, which is not known before the last call. What
was stored under places among the single elements until then is put behind the whole when the list
is finished, and what came with the whole has places inside it, so neither hides the other
(`ListSlot.child?_faults_added`, `ListSlot.child?_faults_bulk`).
-/

namespace Flowsheet

open FaultTree

/-! ### What calls store -/

namespace ListCall

variable {α : Type}

/-- The list that a call about the whole stores, with the fault for which it fell back. -/
def whole? : ListCall α → Option (List α × Option Fault)
  | .setAll values | .supplyAll (.ok values) _ => some (values, none)
  | .supplyAll (.error cause) fallback => some (fallback, some ⟨cause⟩)
  | .add _ | .supplyOne _ _ => none

/-- The element that a call about a single one stores, with the fault for which it fell back. -/
def element? : ListCall α → Option (α × Option Fault)
  | .add value | .supplyOne (.ok value) _ => some (value, none)
  | .supplyOne (.error cause) fallback => some (fallback, some ⟨cause⟩)
  | .setAll _ | .supplyAll _ _ => none

/-- The whole that is stored after some calls, if it was `values` with the tree `t` before. -/
def lastWhole (values : List α) (t : FaultTree) (cs : List (ListCall α)) : List α × Option Fault :=
  (cs.filterMap whole?).getLast?.getD (values, t.fault?)

/-- The single elements after some calls. -/
def elements (cs : List (ListCall α)) : List (α × Option Fault) := cs.filterMap element?

/-- A call is about the whole or about a single element. -/
theorem whole?_or_element? (c : ListCall α) :
    (∃ w, c.whole? = some w ∧ c.element? = none) ∨
      (c.whole? = none ∧ ∃ e, c.element? = some e) := by
  rcases c with values | ⟨cause | values, fallback⟩ | value | ⟨cause | value, fallback⟩
  · exact Or.inl ⟨_, rfl, rfl⟩
  · exact Or.inl ⟨_, rfl, rfl⟩
  · exact Or.inl ⟨_, rfl, rfl⟩
  · exact Or.inr ⟨rfl, _, rfl⟩
  · exact Or.inr ⟨rfl, _, rfl⟩
  · exact Or.inr ⟨rfl, _, rfl⟩

/-- Calls about the whole are those that store a list. -/
theorem isSome_whole? (c : ListCall α) : c.whole?.isSome = c.isWhole := by
  rcases c with values | ⟨cause | values, fallback⟩ | value | ⟨cause | value, fallback⟩ <;> rfl

end ListCall

/-- A part that is stored as an element: a fallback carries the fault itself. -/
def HasFaults.standIn {α : Type} [HasFaults α] : α × Option Fault → α
  | (part, none) => part
  | (fallback, some fault) => mark fault fallback

/-! ### The last whole -/

namespace FaultTree

variable {ι ω : Type}

/-- The tree that came with a whole: the given one, or the fault of the last whole in its place. -/
def cameWith (t : FaultTree) : Option (ω × Option Fault) → FaultTree
  | none => t
  | some w => ofParts w.2 []

/-- The last call about the whole decides on the fault at the root. -/
theorem fault?_cameWith (t : FaultTree) (whole : ω) (last : Option (ω × Option Fault)) :
    (t.cameWith last).fault? = (last.getD (whole, t.fault?)).2 := by
  cases last with
  | none => rfl
  | some w => exact fault?_ofParts _ _

/-- What came with a whole is canonical if the tree at the beginning was. -/
theorem Canonical.cameWith {t : FaultTree} (h : Canonical t) (last : Option (ω × Option Fault)) :
    Canonical (t.cameWith last) := by
  cases last with
  | none => exact h
  | some w => exact canonical_ofParts List.nodup_nil fun c hc => absurd hc List.not_mem_nil

/-- A whole in place of the given one comes without trees of members. -/
theorem child?_cameWith_some (t : FaultTree) (w : ω × Option Fault) (key : FaultKey) :
    (t.cameWith (some w)).child? key = none := by
  unfold child?
  rw [FaultTree.cameWith, children_ofParts, Assoc.get?_nil]

/-- Calls that store no whole leave the trees of the given one. -/
theorem child?_cameWith_of_kept (t : FaultTree) {whole? : ι → Option (ω × Option Fault)}
    {cs : List ι} (h : ∀ c ∈ cs, (whole? c).isSome = false) (key : FaultKey) :
    (t.cameWith (cs.filterMap whole?).getLast?).child? key = t.child? key := by
  have hnil : cs.filterMap whole? = [] := by
    rw [List.filterMap_eq_nil_iff]
    intro c hc
    simpa using h c hc
  rw [hnil]
  rfl

/-- A call that stores one leaves none of them. -/
theorem child?_cameWith_of_replaced (t : FaultTree) {whole? : ι → Option (ω × Option Fault)}
    {cs : List ι} (h : ∃ c ∈ cs, (whole? c).isSome = true) (key : FaultKey) :
    (t.cameWith (cs.filterMap whole?).getLast?).child? key = none := by
  obtain ⟨c, hc, hsome⟩ := h
  obtain ⟨w, hw⟩ := Option.isSome_iff_exists.mp hsome
  have hmem : w ∈ cs.filterMap whole? := List.mem_filterMap.mpr ⟨c, hc, hw⟩
  rw [List.getLast?_eq_some_getLast (List.ne_nil_of_mem hmem)]
  exact child?_cameWith_some t _ key

end FaultTree

/-! ### Runs of calls -/

/-- Where calls to storage lead to what they make of a slot, runs of calls do. -/
theorem Update.outcome_forM {γ σ τ : Type} {perform : γ → Update τ Unit}
    {apply : γ → σ → Except BuildError σ} {store : σ → τ}
    (h : ∀ c slot, (perform c).outcome (store slot) = (apply c slot).map store) (cs : List γ)
    (slot : σ) :
    Update.outcome (cs.forM perform) (store slot) =
      (cs.foldlM (fun slot c => apply c slot) slot).map store := by
  induction cs generalizing slot with
  | nil => rfl
  | cons c rest ih =>
      rw [List.foldlM_cons]
      refine (Update.outcome_bind _ _ _).trans ?_
      rw [h]
      cases apply c slot with
      | error e => rfl
      | ok next => exact ih next

namespace Shape

/-- Calls to a field that all come through, in a builder and in storage that is overwritten, and
lead to the same in both. -/
structure RunsTo (s : Shape) (scope : Scope) (key : FaultKey) (start : s.Slot) (cs : List s.Call)
    (slot : s.Slot) : Prop where
  /-- In a builder. -/
  slot_eq : cs.foldlM (fun slot c => s.apply scope key c slot) start = .ok slot
  /-- In storage. -/
  store_eq : Update.outcome (cs.forM (s.perform scope key)) (s.store start) = .ok (s.store slot)
  /-- The same content. -/
  content_eq : s.storedContent (s.store slot) = s.content slot
  /-- The same tree. -/
  faults_eq : s.storedFaults (s.store slot) = s.faults slot

/-- In place, a call stores what it makes of the slot, or gives the same error. -/
theorem outcome_perform (scope : Scope) (key : FaultKey) (s : Shape) (c : s.Call) (slot : s.Slot) :
    (s.perform scope key c).outcome (s.store slot) = (s.apply scope key c slot).map s.store := by
  unfold Update.outcome
  rw [perform_store]
  cases s.apply scope key c slot <;> rfl

/-- In a tolerant build every run of calls comes through. -/
theorem runsTo_after {scope : Scope} (hscope : scope.mode = .tolerant) (key : FaultKey) (s : Shape)
    (start : s.Slot) (cs : List s.Call) : s.RunsTo scope key start cs (s.after start cs) := by
  obtain ⟨entity, mode⟩ := scope
  obtain rfl : mode = .tolerant := hscope
  have hslot : cs.foldlM (fun slot c => s.apply ⟨entity, .tolerant⟩ key c slot) start =
      .ok (s.after start cs) := by
    simp only [apply_tolerant]
    exact List.foldlM_pure
  refine ⟨hslot, ?_, storedContent_store s _, storedFaults_store s _⟩
  rw [Update.outcome_forM (outcome_perform _ key s), hslot]
  rfl

end Shape

namespace ListSlot

variable {α : Type}

/-- The slot at the end of a run that began with `values` and the tree `t`, where the last call
about the whole is `last`. -/
def ended (values : List α) (t : FaultTree) (last : Option (List α × Option Fault))
    (added : List (α × Option Fault)) : ListSlot α where
  bulk := (last.getD (values, t.fault?)).1
  bulkFaults := t.cameWith last
  added := added

/-- Calls one by one, of which each replaces the whole or appends what is kept of its element, end
with the last whole and with all elements. -/
theorem foldl_eq (step : ListSlot α → ListCall α → ListSlot α)
    (keep : α × Option Fault → α × Option Fault)
    (hwhole : ∀ slot c w, c.whole? = some w → step slot c = ⟨w.1, ofParts w.2 [], slot.added⟩)
    (helement : ∀ slot c e, c.element? = some e →
      step slot c = { slot with added := slot.added ++ [keep e] })
    (values : List α) (t : FaultTree) (cs : List (ListCall α)) :
    cs.foldl step (.copied values t) =
      ended values t (cs.filterMap ListCall.whole?).getLast? ((ListCall.elements cs).map keep) := by
  induction cs using List.reverseRecOn with
  | nil => rfl
  | append_singleton cs c ih =>
      rw [List.foldl_append, List.foldl_cons, List.foldl_nil, ih]
      rcases c.whole?_or_element? with ⟨w, hw, he⟩ | ⟨hw, e, he⟩
      · rw [hwhole _ c w hw]
        simp [ended, ListCall.elements, cameWith, hw, he]
      · rw [helement _ c e he]
        simp [ended, ListCall.elements, hw, he]

section

variable {c : ListCall α} {w : List α × Option Fault} {e : α × Option Fault}

/-- A call about the whole replaces the list and its tree; elements that were added stay. -/
theorem applied_list_whole (slot : ListSlot α) (h : c.whole? = some w) :
    (Shape.list α).applied c slot = ⟨w.1, ofParts w.2 [], slot.added⟩ := by
  rcases c with values | ⟨cause | values, fallback⟩ | value | ⟨cause | value, fallback⟩ <;>
    cases h <;> rfl

/-- A call about an element adds it with the fault for which it fell back. -/
theorem applied_list_element (slot : ListSlot α) (h : c.element? = some e) :
    (Shape.list α).applied c slot = { slot with added := slot.added ++ [e] } := by
  rcases c with values | ⟨cause | values, fallback⟩ | value | ⟨cause | value, fallback⟩ <;>
    cases h <;> rfl

variable [HasFaults α]

/-- A call about the whole replaces the parts and their tree; parts that were added stay. -/
theorem applied_parts_whole (slot : ListSlot α) (h : c.whole? = some w) :
    (Shape.parts α).applied c slot = ⟨w.1, ofParts w.2 [], slot.added⟩ := by
  rcases c with values | ⟨cause | values, fallback⟩ | value | ⟨cause | value, fallback⟩ <;>
    cases h <;> rfl

/-- A call about a part adds the part; a fallback takes the fault with it. -/
theorem applied_parts_element (slot : ListSlot α) (h : c.element? = some e) :
    (Shape.parts α).applied c slot =
      { slot with added := slot.added ++ [(HasFaults.standIn e, none)] } := by
  rcases c with values | ⟨cause | values, fallback⟩ | value | ⟨cause | value, fallback⟩ <;>
    cases h <;> rfl

end

/-- Calls to a list of plain values. -/
theorem after_list (values : List α) (t : FaultTree) (cs : List (ListCall α)) :
    (Shape.list α).after (.copied values t) cs =
      ended values t (cs.filterMap ListCall.whole?).getLast? (ListCall.elements cs) := by
  have hrun := foldl_eq _ id (fun slot _ _ => applied_list_whole slot)
    (fun slot _ _ => applied_list_element slot) values t cs
  rw [List.map_id] at hrun
  exact hrun

/-- Calls to a list of parts. -/
theorem after_parts [HasFaults α] (values : List α) (t : FaultTree) (cs : List (ListCall α)) :
    (Shape.parts α).after (.copied values t) cs =
      ended values t (cs.filterMap ListCall.whole?).getLast?
        ((ListCall.elements cs).map fun e => (HasFaults.standIn e, none)) :=
  foldl_eq _ (fun e => (HasFaults.standIn e, none)) (fun slot _ _ => applied_parts_whole slot)
    (fun slot _ _ => applied_parts_element slot) values t cs

/-! ### Trees of plain values -/

/-- Elements without faults do not show beside other children either. -/
theorem merge_append_addedFaults (own : Option Fault) (cs : List (FaultKey × FaultTree))
    (offset : Nat) (added : List (α × Option Fault)) :
    merge own (cs ++ addedFaults offset added) =
      merge own (cs ++ indexed offset (added.map elementFaults)) := by
  rw [← merge_filter own (cs ++ addedFaults offset added), ← merge_filter own (cs ++ indexed _ _),
    List.filter_append, List.filter_append, addedFaults_eq, List.filter_filter]
  simp only [Bool.and_self]

/-- What a builder keeps of a list of plain values: the tree that came with the whole is canonical,
and below it there are only places of the whole. -/
structure PlacesWhole (slot : ListSlot α) : Prop where
  /-- The tree is canonical. -/
  canonical : Canonical slot.bulkFaults
  /-- Its children have places of the whole. -/
  lt_length : ∀ key ∈ Assoc.keys slot.bulkFaults.children,
    ∃ i, i < slot.bulk.length ∧ key = .index i

/-- At the end of a run, below the tree that came with the whole there are only places of the
whole. -/
theorem PlacesWhole.ended {values : List α} {t : FaultTree} (h : PlacesWhole (.copied values t))
    (last : Option (List α × Option Fault)) (added : List (α × Option Fault)) :
    PlacesWhole (ended values t last added) := by
  refine ⟨h.canonical.cameWith last, ?_⟩
  cases last with
  | none => exact h.lt_length
  | some w =>
      intro key hkey
      have hnone := Assoc.get?_eq_none_iff.mp (child?_cameWith_some t w key)
      exact absurd hkey hnone

/-- Below the finished tree there are the trees of the single elements behind the whole and what
came with the whole. -/
theorem child?_faults {slot : ListSlot α} (h : PlacesWhole slot) (key : FaultKey) :
    slot.faults.child? key =
      ((Assoc.get? key (indexed slot.bulk.length (slot.added.map elementFaults))).filter
        fun u => u.hasFaults).or (slot.bulkFaults.child? key) := by
  unfold faults
  rw [merge_append_addedFaults, child?_merge_append,
    child?_merge_of_nodup _ (nodup_keys_indexed _ _), h.canonical.child?_merge_children]

/-- Behind the whole every element that fell back has its fault, and no other has a tree. -/
theorem child?_faults_added {slot : ListSlot α} (h : PlacesWhole slot) (i : Nat) :
    slot.faults.child? (.index (slot.bulk.length + i)) =
      (slot.added[i]?.bind (·.2)).map leaf := by
  have hnone : slot.bulkFaults.child? (.index (slot.bulk.length + i)) = none := by
    unfold child?
    rw [Assoc.get?_eq_none_iff]
    intro hmem
    obtain ⟨j, hj, heq⟩ := h.lt_length _ hmem
    have := FaultKey.index.inj heq
    omega
  rw [child?_faults h, hnone, Option.or_none, get?_indexed, List.getElem?_map]
  rcases slot.added[i]? with _ | ⟨a, _ | fault⟩ <;> rfl

/-- Inside the whole there is what came with it. -/
theorem child?_faults_bulk {slot : ListSlot α} (h : PlacesWhole slot) {i : Nat}
    (hi : i < slot.bulk.length) :
    slot.faults.child? (.index i) = slot.bulkFaults.child? (.index i) := by
  rw [child?_faults h, Assoc.get?_eq_none_iff.mpr, Option.filter_none, Option.none_or]
  intro hmem
  rw [keys_indexed] at hmem
  obtain ⟨j, hj, heq⟩ := List.mem_map.mp hmem
  have hle : slot.bulk.length ≤ j := (List.mem_range'_1.mp hj).1
  have := FaultKey.index.inj heq
  omega

/-- There is nothing under keys that are no places. -/
theorem child?_faults_other {slot : ListSlot α} (h : PlacesWhole slot) {key : FaultKey}
    (hkey : ∀ i, key ≠ .index i) : slot.faults.child? key = none := by
  have hbulk : slot.bulkFaults.child? key = none := by
    unfold child?
    rw [Assoc.get?_eq_none_iff]
    intro hmem
    obtain ⟨i, -, heq⟩ := h.lt_length _ hmem
    exact hkey i heq
  rw [child?_faults h, hbulk, Option.or_none, Assoc.get?_eq_none_iff.mpr, Option.filter_none]
  intro hmem
  obtain ⟨i, -, heq⟩ := exists_of_mem_keys_indexed hmem
  exact hkey i heq

/-! ### Finished lists -/

/-- A list field before any call: nothing is known of it, or it was taken over from a finished
entity with its list and its tree, below which there are only places of the list. -/
inductive Opening : List α → FaultTree → ListSlot α → Prop where
  /-- Nothing is known. -/
  | fresh : Opening [] .empty .unset
  /-- The list and the tree of a finished entity. -/
  | copied {values : List α} {t : FaultTree} (ht : Composed t)
      (hplaces : ∀ key ∈ Assoc.keys t.children, ∃ i, i < values.length ∧ key = .index i) :
    Opening values t (.copied values t)

/-- Fresh or copied, a run begins with a slot that is taken over. -/
theorem Opening.eq_copied {values : List α} {t : FaultTree} {start : ListSlot α}
    (h : Opening values t start) : start = .copied values t := by
  cases h <;> rfl

/-- Fresh or copied, a run begins with a tree of which all keys are places of the list. -/
theorem Opening.placesWhole {values : List α} {t : FaultTree} {start : ListSlot α}
    (h : Opening values t start) : PlacesWhole start := by
  cases h with
  | fresh => exact ⟨trivial, fun key hkey => absurd hkey List.not_mem_nil⟩
  | copied ht hplaces => exact ⟨ht.canonical, hplaces⟩

/-- A finished list of plain values and its tree, after calls to a field that began with `values`
and the tree `t`. -/
structure IsPlainRun (values : List α) (t : FaultTree) (cs : List (ListCall α)) (items : List α)
    (u : FaultTree) : Prop where
  /-- The last whole is in front, and behind it one element for each call about a single one. -/
  items_eq : items =
    (ListCall.lastWhole values t cs).1 ++ (ListCall.elements cs).map (·.1)
  /-- The field's own fault is that for which the last whole fell back. -/
  own_eq : u.fault? = (ListCall.lastWhole values t cs).2
  /-- An element has a leaf with its cause just if it fell back. -/
  child?_element : ∀ i, u.child? (.index ((ListCall.lastWhole values t cs).1.length + i)) =
    ((ListCall.elements cs)[i]?.bind (·.2)).map leaf
  /-- A whole that was not replaced has the trees that came with it. -/
  child?_kept : (∀ c ∈ cs, c.isWhole = false) → ∀ i, i < (ListCall.lastWhole values t cs).1.length →
    u.child? (.index i) = t.child? (.index i)
  /-- A whole that was replaced has no trees of elements. -/
  child?_replaced : (∃ c ∈ cs, c.isWhole = true) →
    ∀ i, i < (ListCall.lastWhole values t cs).1.length → u.child? (.index i) = none
  /-- There is nothing but places. -/
  child?_other : ∀ key, (∀ i, key ≠ .index i) → u.child? key = none

/-- A finished list of parts and its tree, after calls to a field that began with `values` and the
tree `t`. -/
structure IsPartsRun [HasFaults α] (values : List α) (t : FaultTree) (cs : List (ListCall α))
    (items : List α) (u : FaultTree) : Prop where
  /-- The last whole is in front, and behind it one part for each call about a single one, marked if
  it fell back. -/
  items_eq : items =
    (ListCall.lastWhole values t cs).1 ++ (ListCall.elements cs).map HasFaults.standIn
  /-- The field's own fault is that for which the last whole fell back. -/
  own_eq : u.fault? = (ListCall.lastWhole values t cs).2
  /-- Each place has the own tree of the part there unless that is empty. -/
  child?_part : ∀ i, u.child? (.index i) =
    (items[i]?.map HasFaults.faults).filter fun v => v.hasFaults
  /-- There is nothing but places. -/
  child?_other : ∀ key, (∀ i, key ≠ .index i) → u.child? key = none

/-- The finished list of a run of calls to a list of plain values. -/
theorem isPlainRun_after {values : List α} {t : FaultTree} (h : PlacesWhole (.copied values t))
    (cs : List (ListCall α)) :
    IsPlainRun values t cs ((Shape.list α).after (.copied values t) cs).values
      ((Shape.list α).after (.copied values t) cs).faults := by
  rw [after_list]
  have hended := h.ended (cs.filterMap ListCall.whole?).getLast? (ListCall.elements cs)
  constructor
  · rfl
  · exact (fault?_merge _ _).trans (fault?_cameWith t values _)
  · exact child?_faults_added hended
  · intro hsingle i hi
    rw [child?_faults_bulk hended hi]
    exact child?_cameWith_of_kept t (fun c hc => c.isSome_whole?.trans (hsingle c hc)) _
  · rintro ⟨c, hc, hwhole⟩ i hi
    rw [child?_faults_bulk hended hi]
    exact child?_cameWith_of_replaced t ⟨c, hc, c.isSome_whole?.trans hwhole⟩ _
  · exact fun key hkey => child?_faults_other hended hkey

/-- The finished list of a run of calls to a list of parts. -/
theorem isPartsRun_after [HasFaults α] (values : List α) (t : FaultTree)
    (cs : List (ListCall α)) :
    IsPartsRun values t cs ((Shape.parts α).after (.copied values t) cs).values
      ((Shape.parts α).after (.copied values t) cs).partFaults := by
  have hcoherent := (Shape.coherent_parts ((Shape.parts α).after (.copied values t) cs)).1
  rw [after_parts] at hcoherent ⊢
  constructor
  · exact congrArg (_ ++ ·) List.map_map
  · exact (fault?_merge _ _).trans (fault?_cameWith t values _)
  · intro i
    rw [Shape.filter_map_faults]
    exact hcoherent (.index i)
  · intro key hkey
    have hchild := hcoherent key
    cases key with
    | index i => exact absurd rfl (hkey i)
    | field name | key k | prior => exact hchild

end ListSlot

/-- Calls to a list field in a tolerant build, in any order, where the field is fresh or was taken
over. All of them come through, in a builder and in storage that keeps the faults of single elements
under the places that they have among each other. The finished list has the last whole in front and
the single elements behind it. Its own fault is that of the last whole; a list of plain values has
the faults of the single elements under their final places, and those of elements of a whole that
was taken over and not replaced; a list of parts has the parts' own trees. -/
theorem list_run {scope : Scope} (hscope : scope.mode = .tolerant) (key : FaultKey) {α : Type}
    {values : List α} {t : FaultTree} {start : ListSlot α} (h : ListSlot.Opening values t start)
    (cs : List (ListCall α)) :
    (∃ slot, (Shape.list α).RunsTo scope key start cs slot ∧
      ListSlot.IsPlainRun values t cs slot.values slot.faults) ∧
    ∀ [HasFaults α], ∃ slot, (Shape.parts α).RunsTo scope key start cs slot ∧
      ListSlot.IsPartsRun values t cs slot.values slot.partFaults := by
  have hplaces := h.placesWhole
  obtain rfl := h.eq_copied
  constructor
  · exact ⟨_, Shape.runsTo_after hscope key (.list α) _ cs, ListSlot.isPlainRun_after hplaces cs⟩
  · exact ⟨_, Shape.runsTo_after hscope key (.parts α) _ cs, ListSlot.isPartsRun_after values t cs⟩

/-- The tree of a list the second element of which fell back. -/
def secondFellBack : FaultTree := merge none [(.index 1, leaf ⟨.text "old"⟩)]

/-- A copy of this list is one that a run may begin with. -/
theorem opening_secondFellBack :
    ListSlot.Opening [7, 8] secondFellBack (.copied [7, 8] secondFellBack) := by
  constructor
  · apply Composed.merge
    intro c hc
    rw [List.mem_singleton.mp hc]
    exact Composed.leaf _
  · intro key hkey
    exact ⟨1, by decide, List.mem_singleton.mp hkey⟩

/-- Such a list is given two more elements, one of which falls back. A list of ports is given a port
in place of one that could not be read, and then a whole in front of it. -/
theorem list_run_interleaved :
    let scope : Scope := ⟨"Sample", .tolerant⟩
    (∃ slot, (Shape.list Nat).RunsTo scope (.field "value") (.copied [7, 8] secondFellBack)
        [.supplyOne (.error (.text "new")) 0, .add 9] slot ∧
      slot.values = [7, 8, 0, 9] ∧ slot.faults.fault? = none ∧
      slot.faults.child? (.index 1) = some (leaf ⟨.text "old"⟩) ∧
      slot.faults.child? (.index 2) = some (leaf ⟨.text "new"⟩) ∧
      slot.faults.child? (.index 3) = none) ∧
    ∃ slot, (Shape.parts Port).RunsTo scope (.field "value") .unset
        [.supplyOne (.error (.text "no port")) ⟨none, none, none, .empty⟩,
          .supplyAll (.error (.text "no ports")) [Entity.placeholder Port]] slot ∧
      slot.partFaults.fault? = some ⟨.text "no ports"⟩ ∧
      slot.partFaults.child? (.index 1) = some (FaultTree.empty.inject ⟨.text "no port"⟩) := by
  intro scope
  have hscope : scope.mode = .tolerant := rfl
  obtain ⟨slot, hruns, hrun⟩ := (list_run hscope (.field "value")
    opening_secondFellBack [.supplyOne (.error (.text "new")) 0, .add 9]).1
  obtain ⟨ports, hportsRun, hports⟩ := (list_run hscope (.field "value")
    (ListSlot.Opening.fresh (α := Port))
    [.supplyOne (.error (.text "no port")) ⟨none, none, none, .empty⟩,
      .supplyAll (.error (.text "no ports")) [Entity.placeholder Port]]).2
  have hitems := hports.items_eq
  refine ⟨⟨slot, hruns, hrun.items_eq, hrun.own_eq, ?_, hrun.child?_element 0,
    hrun.child?_element 1⟩, ports, hportsRun, hports.own_eq, ?_⟩
  · exact hrun.child?_kept (fun c hc => by
      rcases List.mem_cons.mp hc with rfl | hc
      · rfl
      · obtain rfl := List.mem_singleton.mp hc
        rfl) 1 (by decide)
  · rw [hports.child?_part, hitems]
    rfl

end Flowsheet
