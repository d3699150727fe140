import Flowsheet.Proofs.Build.ListRuns

/-!
# Maps after any calls

Calls about a map as a whole and calls that put single entries can be made in any order. The
finished map has the keys of the last whole in their order, and behind them the keys that were put
and are not among those, in the order in which they were first put; at each key there is the value
that was put there last, or that of the whole if none was. The field's own fault is the one for
which the last whole fell back. Below it a map of plain values has the fault of the last put at each
key, and under keys that were not put the trees that came with the whole; a map of parts has the
parts' own trees (`map_run`).

A call is one of two things, the whole that it stores (`MapCall.whole?`) or the entry
(`MapCall.entry?`). The first replaces what is stored of the whole. The second writes the value and,
in step with it, writes the fault or erases an earlier one, so reading a key finds what was put
there last in both (`MapSlot.get?_noteAll`). When the map is finished, what came with the whole is
dropped where a key was put, whether that put fell back or not (`MapSlot.child?_faults`).
-/

namespace Flowsheet

open FaultTree

/-! ### What calls store -/

namespace MapCall

variable {α : Type}

/-- The map that a call about the whole stores, with the fault for which it fell back. -/
def whole? : MapCall α → Option (List (String × α) × Option Fault)
  | .setAll entries | .supplyAll (.ok entries) _ => some (entries, none)
  | .supplyAll (.error cause) fallback => some (fallback, some ⟨cause⟩)
  | .put _ _ | .supplyOne _ _ _ => none

/-- The entry that a call about a single one stores, with the fault for which it fell back. -/
def entry? : MapCall α → Option (String × (α × Option Fault))
  | .put k value | .supplyOne k (.ok value) _ => some (k, value, none)
  | .supplyOne k (.error cause) fallback => some (k, fallback, some ⟨cause⟩)
  | .setAll _ | .supplyAll _ _ => none

/-- The whole that is stored after some calls, if it was `entries` with the tree `t` before. -/
def lastWhole (entries : List (String × α)) (t : FaultTree) (cs : List (MapCall α)) :
    List (String × α) × Option Fault :=
  (cs.filterMap whole?).getLast?.getD (entries, t.fault?)

/-- The single entries in the order in which some calls put them. -/
def puts (cs : List (MapCall α)) : List (String × (α × Option Fault)) := cs.filterMap entry?

/-- What some calls put last at a key. -/
def lastPut? (k : String) (cs : List (MapCall α)) : Option (α × Option Fault) :=
  ((puts cs).filter fun e => e.1 = k).getLast?.map (·.2)

/-- The last put is the first that a lookup from the end finds. -/
theorem lastPut?_eq (k : String) (cs : List (MapCall α)) :
    lastPut? k cs = Assoc.get? k (puts cs).reverse :=
  (Assoc.get?_reverse k (puts cs)).symm

/-- A call is about the whole or about a single entry. -/
theorem whole?_or_entry? (c : MapCall α) :
    (∃ w, c.whole? = some w ∧ c.entry? = none) ∨ (c.whole? = none ∧ ∃ e, c.entry? = some e) := by
  rcases c with es | ⟨cause | es, fallback⟩ | ⟨k, v⟩ | ⟨k, cause | v, fallback⟩
  · exact Or.inl ⟨_, rfl, rfl⟩
  · exact Or.inl ⟨_, rfl, rfl⟩
  · exact Or.inl ⟨_, rfl, rfl⟩
  · exact Or.inr ⟨rfl, _, rfl⟩
  · exact Or.inr ⟨rfl, _, rfl⟩
  · exact Or.inr ⟨rfl, _, rfl⟩

/-- Calls about the whole are those that store a map. -/
theorem isSome_whole? (c : MapCall α) : c.whole?.isSome = c.isWhole := by
  rcases c with es | ⟨cause | es, fallback⟩ | ⟨k, v⟩ | ⟨k, cause | v, fallback⟩ <;> rfl

/-- Where all wholes have distinct keys, so has the last one. -/
theorem nodup_keys_lastWhole {entries : List (String × α)} (hentries : (Assoc.keys entries).Nodup)
    (t : FaultTree) {cs : List (MapCall α)}
    (hcs : ∀ c ∈ cs, ∀ w, c.whole? = some w → (Assoc.keys w.1).Nodup) :
    (Assoc.keys (lastWhole entries t cs).1).Nodup := by
  unfold lastWhole
  cases hlast : (cs.filterMap whole?).getLast? with
  | none => exact hentries
  | some w =>
      obtain ⟨c, hc, hw⟩ := List.mem_filterMap.mp (List.mem_of_getLast? hlast)
      exact hcs c hc w hw

/-! ### Maps of plain values -/

/-- What a call does to a map of plain values in a builder. -/
def apply (scope : Scope) (key : FaultKey) : MapCall α → MapSlot α → Except BuildError (MapSlot α)
  | .setAll entries, slot => .ok (slot.assignAll entries)
  | .supplyAll given fallback, slot => slot.supplyAll scope key given fallback
  | .put k value, slot => .ok (slot.insert k value)
  | .supplyOne k given fallback, slot => slot.supplyEntry scope key k given fallback

/-- What a call does to a map of plain values in storage. -/
def perform (scope : Scope) (key : FaultKey) : MapCall α → Update (MapSlot α) Unit
  | .setAll entries => MapSlot.InPlace.assignAll entries
  | .supplyAll given fallback => MapSlot.InPlace.supplyAll scope key given fallback
  | .put k value => MapSlot.InPlace.insert k value
  | .supplyOne k given fallback => MapSlot.InPlace.supplyEntry scope key k given fallback

/-- What a call makes of a map of plain values in a tolerant build. -/
def applied (slot : MapSlot α) (c : MapCall α) : MapSlot α :=
  match c.apply ⟨"", .tolerant⟩ .prior slot with
  | .ok next => next
  | .error _ => slot

/-- Tolerant builders refuse no call to a map. -/
theorem apply_tolerant (entity : String) (key : FaultKey) (c : MapCall α) (slot : MapSlot α) :
    c.apply ⟨entity, .tolerant⟩ key slot = .ok (applied slot c) := by
  rcases c with es | ⟨cause | es, fallback⟩ | ⟨k, v⟩ | ⟨k, cause | v, fallback⟩ <;> rfl

/-- In place, a call stores what it makes of the slot, or gives the same error. -/
theorem outcome_perform (scope : Scope) (key : FaultKey) (c : MapCall α) (slot : MapSlot α) :
    (c.perform scope key).outcome slot = (c.apply scope key slot).map id := by
  obtain ⟨entity, _ | _⟩ := scope <;>
    rcases c with es | ⟨cause | es, fallback⟩ | ⟨k, v⟩ | ⟨k, cause | v, fallback⟩ <;> rfl

end MapCall

namespace MapSlot

variable {α : Type}

/-- Calls to a map of plain values that all come through, in a builder and in storage that is
overwritten, and lead to the same in both. -/
structure RunsTo (scope : Scope) (key : FaultKey) (start : MapSlot α) (cs : List (MapCall α))
    (slot : MapSlot α) : Prop where
  /-- In a builder. -/
  slot_eq : cs.foldlM (fun slot c => c.apply scope key slot) start = .ok slot
  /-- In storage. -/
  store_eq : Update.outcome (cs.forM (MapCall.perform scope key)) start = .ok slot

/-- In a tolerant build every run of calls comes through. -/
theorem runsTo_foldl {scope : Scope} (hscope : scope.mode = .tolerant) (key : FaultKey)
    (start : MapSlot α) (cs : List (MapCall α)) :
    RunsTo scope key start cs (cs.foldl MapCall.applied start) := by
  obtain ⟨entity, mode⟩ := scope
  obtain rfl : mode = .tolerant := hscope
  have hslot : cs.foldlM (fun slot c => c.apply ⟨entity, .tolerant⟩ key slot) start =
      .ok (cs.foldl MapCall.applied start) := by
    simp only [MapCall.apply_tolerant]
    exact List.foldlM_pure
  refine ⟨hslot, (Update.outcome_forM (MapCall.outcome_perform _ key) cs start).trans ?_⟩
  rw [hslot]
  rfl

/-! ### Runs of calls -/

/-- The faults of single entries after one more was put: its own in place of an earlier one of its
key. -/
def note (faults : List (String × FaultTree)) (e : String × (α × Option Fault)) :
    List (String × FaultTree) :=
  match e.2.2 with
  | none => Assoc.erase e.1 faults
  | some fault => Assoc.insert e.1 (leaf fault) faults

/-- After one more entry, its key has its fault or none, and the other keys have what they had. -/
theorem get?_note (k : String) (faults : List (String × FaultTree))
    (e : String × (α × Option Fault)) :
    Assoc.get? k (note faults e) = if e.1 = k then e.2.2.map leaf else Assoc.get? k faults := by
  obtain ⟨j, a, _ | fault⟩ := e
  · exact Assoc.get?_erase k j faults
  · exact Assoc.get?_insert k j (leaf fault) faults

/-- One more entry gives no key a second fault. -/
theorem nodup_keys_note {faults : List (String × FaultTree)} (h : (Assoc.keys faults).Nodup)
    (e : String × (α × Option Fault)) : (Assoc.keys (note faults e)).Nodup := by
  obtain ⟨j, a, _ | fault⟩ := e
  · exact Assoc.nodup_keys_filter _ h
  · exact Assoc.nodup_keys_insert h

/-- The faults of single entries that were put in this order. -/
def noteAll (es : List (String × (α × Option Fault))) : List (String × FaultTree) :=
  es.foldl note []

/-- The last entry is noted last. -/
theorem noteAll_concat (es : List (String × (α × Option Fault))) (e : String × (α × Option Fault)) :
    noteAll (es ++ [e]) = note (noteAll es) e := List.foldl_append

/-- No key has two faults of single entries. -/
theorem nodup_keys_noteAll (es : List (String × (α × Option Fault))) :
    (Assoc.keys (noteAll es)).Nodup := by
  induction es using List.reverseRecOn with
  | nil => exact List.nodup_nil
  | append_singleton es e ih =>
      rw [noteAll_concat]
      exact nodup_keys_note ih e

/-- A key has the fault of what was put there last, and none if that did not fall back. -/
theorem get?_noteAll (k : String) (es : List (String × (α × Option Fault))) :
    Assoc.get? k (noteAll es) = (Assoc.get? k es.reverse).bind fun p => p.2.map leaf := by
  induction es using List.reverseRecOn with
  | nil => rfl
  | append_singleton es e ih =>
      rw [noteAll_concat, get?_note, ih, List.reverse_append, List.reverse_singleton,
        List.singleton_append, Assoc.get?_cons]
      split <;> rfl

/-- The slot at the end of a run that began with `entries` and the tree `t`, where the last call
about the whole is `last` and `es` were put. -/
def ended (entries : List (String × α)) (t : FaultTree)
    (last : Option (List (String × α) × Option Fault)) (es : List (String × (α × Option Fault))) :
    MapSlot α where
  bulk := (last.getD (entries, t.fault?)).1
  bulkFaults := t.cameWith last
  put := Assoc.ofList (es.map fun e => (e.1, e.2.1))
  putFaults := noteAll es

/-- Calls one by one, of which each replaces the whole or puts what is kept of its entry, end with
the last whole and with all entries. -/
theorem foldl_eq (step : MapSlot α → MapCall α → MapSlot α)
    (keep : α × Option Fault → α × Option Fault)
    (hwhole : ∀ slot c w, c.whole? = some w →
      step slot c = { slot with bulk := w.1, bulkFaults := ofParts w.2 [] })
    (hentry : ∀ slot c e, c.entry? = some e →
      step slot c = { slot with
        put := Assoc.insert e.1 (keep e.2).1 slot.put
        putFaults := note slot.putFaults (e.1, keep e.2) })
    (entries : List (String × α)) (t : FaultTree) (cs : List (MapCall α)) :
    cs.foldl step (.copied entries t) =
      ended entries t (cs.filterMap MapCall.whole?).getLast?
        ((MapCall.puts cs).map fun e => (e.1, keep e.2)) := by
  induction cs using List.reverseRecOn with
  | nil => rfl
  | append_singleton cs c ih =>
      rw [List.foldl_append, List.foldl_cons, List.foldl_nil, ih]
      rcases c.whole?_or_entry? with ⟨w, hw, he⟩ | ⟨hw, e, he⟩
      · rw [hwhole _ c w hw]
        simp [ended, MapCall.puts, cameWith, hw, he]
      · rw [hentry _ c e he]
        simp [ended, MapCall.puts, Assoc.ofList, Assoc.extend_concat, noteAll_concat, hw, he]

section

variable {c : MapCall α} {w : List (String × α) × Option Fault} {e : String × (α × Option Fault)}

/-- A call about the whole replaces the map and its tree; entries that were put stay. -/
theorem applied_whole (slot : MapSlot α) (h : c.whole? = some w) :
    MapCall.applied slot c = { slot with bulk := w.1, bulkFaults := ofParts w.2 [] } := by
  rcases c with es | ⟨cause | es, fallback⟩ | ⟨k, v⟩ | ⟨k, cause | v, fallback⟩ <;>
    cases h <;> rfl

/-- A call about an entry puts it, with the fault for which it fell back in place of an earlier
one. -/
theorem applied_entry (slot : MapSlot α) (h : c.entry? = some e) :
    MapCall.applied slot c = { slot with
      put := Assoc.insert e.1 e.2.1 slot.put
      putFaults := note slot.putFaults e } := by
  rcases c with es | ⟨cause | es, fallback⟩ | ⟨k, v⟩ | ⟨k, cause | v, fallback⟩ <;>
    cases h <;> rfl

variable [HasFaults α]

/-- A call about the whole replaces the parts and their tree; parts that were put stay. -/
theorem applied_namedParts_whole (slot : MapSlot α) (h : c.whole? = some w) :
    (Shape.namedParts α).applied c slot =
      { slot with bulk := w.1, bulkFaults := ofParts w.2 [] } := by
  rcases c with es | ⟨cause | es, fallback⟩ | ⟨k, v⟩ | ⟨k, cause | v, fallback⟩ <;>
    cases h <;> rfl

/-- A call about a part puts the part; a fallback takes the fault with it. -/
theorem applied_namedParts_entry (slot : MapSlot α) (h : c.entry? = some e) :
    (Shape.namedParts α).applied c slot = { slot with
      put := Assoc.insert e.1 (HasFaults.standIn e.2) slot.put
      putFaults := note slot.putFaults (e.1, HasFaults.standIn e.2, none) } := by
  rcases c with es | ⟨cause | es, fallback⟩ | ⟨k, v⟩ | ⟨k, cause | v, fallback⟩ <;>
    cases h <;> rfl

end

/-- Calls to a map of plain values. -/
theorem foldl_applied (entries : List (String × α)) (t : FaultTree) (cs : List (MapCall α)) :
    cs.foldl MapCall.applied (.copied entries t) =
      ended entries t (cs.filterMap MapCall.whole?).getLast? (MapCall.puts cs) := by
  have hrun := foldl_eq _ id (fun slot _ _ => applied_whole slot)
    (fun slot _ _ => applied_entry slot) entries t cs
  exact hrun.trans (congrArg _ (List.map_id _))

/-- Calls to a map of parts. -/
theorem after_namedParts [HasFaults α] (entries : List (String × α)) (t : FaultTree)
    (cs : List (MapCall α)) :
    (Shape.namedParts α).after (.copied entries t) cs =
      ended entries t (cs.filterMap MapCall.whole?).getLast?
        ((MapCall.puts cs).map fun e => (e.1, HasFaults.standIn e.2, none)) :=
  foldl_eq _ (fun e => (HasFaults.standIn e, none)) (fun slot _ _ => applied_namedParts_whole slot)
    (fun slot _ _ => applied_namedParts_entry slot) entries t cs

/-! ### Ended runs -/

section

variable {entries : List (String × α)} {t : FaultTree}
  {last : Option (List (String × α) × Option Fault)} {es : List (String × (α × Option Fault))}

/-- A run ends with the last whole, and the entries that were put are written over it. -/
theorem entries_ended : (ended entries t last es).entries =
    Assoc.extend (last.getD (entries, t.fault?)).1 (es.map fun e => (e.1, e.2.1)) :=
  Assoc.extend_ofList _ _

/-- Keys of the last whole come first, other keys in the order of their first puts. -/
theorem keys_entries_ended : Assoc.keys (ended entries t last es).entries =
    Assoc.keys (last.getD (entries, t.fault?)).1 ++
      (Assoc.keys es).eraseDups.filter (· ∉ Assoc.keys (last.getD (entries, t.fault?)).1) := by
  rw [entries_ended, Assoc.keys_extend, Assoc.keys_map_value]

/-- A key is there at the end just if the last whole had it or it was put. -/
theorem mem_keys_entries_ended {k : String} : k ∈ Assoc.keys (ended entries t last es).entries ↔
    k ∈ Assoc.keys (last.getD (entries, t.fault?)).1 ∨ k ∈ Assoc.keys es := by
  rw [entries_ended, Assoc.mem_keys_extend, Assoc.keys_map_value]

/-- The last put of a key counts, and without one what the last whole had. -/
theorem get?_entries_ended (k : String) : Assoc.get? k (ended entries t last es).entries =
    ((Assoc.get? k es.reverse).map (·.1)).or
      (Assoc.get? k (last.getD (entries, t.fault?)).1) := by
  rw [entries_ended, Assoc.get?_extend, ← List.map_reverse, Assoc.get?_map_value]

/-- The keys of the whole that are overwritten are those that were put. -/
theorem isOverwritten_ended (k : String) :
    (ended entries t last es).isOverwritten (.key k) = (Assoc.get? k es.reverse).isSome := by
  show (Assoc.get? k (Assoc.ofList _)).isSome = _
  rw [Assoc.get?_ofList, ← List.map_reverse, Assoc.get?_map_value, Option.isSome_map]

/-- Below the finished tree there are the faults of single entries and what came with the whole, the
latter unless a key was put. -/
theorem child?_faults {slot : MapSlot α} (hcanonical : Canonical slot.bulkFaults)
    (hkeys : (Assoc.keys slot.putFaults).Nodup) (key : FaultKey) :
    slot.faults.child? key =
      ((Assoc.get? key (slot.putFaults.map fun e => (FaultKey.key e.1, e.2))).filter
        fun u => u.hasFaults).or
      (if slot.isOverwritten key then none else slot.bulkFaults.child? key) := by
  have hbulk : (merge slot.bulkFaults.fault?
      (slot.bulkFaults.children.filter fun c => !slot.isOverwritten c.1)).child? key =
      if slot.isOverwritten key then none else slot.bulkFaults.child? key := by
    rw [child?_merge_of_nodup _ (Assoc.nodup_keys_filter _ hcanonical.nodup_keys),
      Assoc.get?_filter_keys key fun k => !slot.isOverwritten k]
    cases slot.isOverwritten key with
    | true => rfl
    | false => exact hcanonical.filter_child? key
  unfold faults
  rw [child?_merge_append, hbulk,
    child?_merge_of_nodup _ (nodup_keys_named hkeys fun e : String × FaultTree => e.2)]

/-- Of the single entries under a key, the last one decides whether the key has a fault. -/
theorem get?_named_noteAll (k : String) (es : List (String × (α × Option Fault))) :
    Assoc.get? (.key k) ((noteAll es).map fun e => (FaultKey.key e.1, e.2)) =
      (Assoc.get? k es.reverse).bind fun p => p.2.map leaf := by
  rw [get?_named k (noteAll es) fun u => u, get?_noteAll]
  exact Option.map_id_apply

/-- A key that was put has the fault of what was put there last, and any other key the tree that
came with the whole. -/
theorem child?_faults_key (h : Canonical t) (k : String) :
    (ended entries t last es).faults.child? (.key k) =
      match Assoc.get? k es.reverse with
      | some p => p.2.map leaf
      | none => (t.cameWith last).child? (.key k) := by
  rw [child?_faults (h.cameWith last) (nodup_keys_noteAll es), isOverwritten_ended]
  show ((Assoc.get? _ ((noteAll es).map _)).filter _).or _ = _
  rw [get?_named_noteAll]
  rcases Assoc.get? k es.reverse with _ | ⟨a, _ | fault⟩ <;> rfl

/-- Whatever is no key of a map came with the whole. -/
theorem child?_faults_other (h : Canonical t) {key : FaultKey} (hkey : ∀ k, key ≠ .key k) :
    (ended entries t last es).faults.child? key = (t.cameWith last).child? key := by
  have hnone : Assoc.get? key ((noteAll es).map fun e => (FaultKey.key e.1, e.2)) = none := by
    rw [Assoc.get?_eq_none_iff]
    intro hmem
    obtain ⟨k, hk⟩ := exists_of_mem_keys_named hmem
    exact hkey k hk
  rw [child?_faults (h.cameWith last) (nodup_keys_noteAll es)]
  show ((Assoc.get? _ ((noteAll es).map _)).filter _).or _ = _
  rw [hnone]
  cases key with
  | key k => exact absurd rfl (hkey k)
  | field name | index i | prior => rfl

end

/-! ### Finished maps -/

/-- A map field before any call: nothing is known of it, or it was taken over from a finished entity
with its map and its tree, below which there are only keys of the map. -/
inductive Opening : List (String × α) → FaultTree → MapSlot α → Prop where
  /-- Nothing is known. -/
  | fresh : Opening [] .empty .unset
  /-- The map and the tree of a finished entity. -/
  | copied {entries : List (String × α)} {t : FaultTree} (hentries : (Assoc.keys entries).Nodup)
      (ht : Composed t)
      (hkeys : ∀ key ∈ Assoc.keys t.children, ∃ k ∈ Assoc.keys entries, key = .key k) :
    Opening entries t (.copied entries t)

/-- Fresh or copied, a run begins with a slot that is taken over. -/
theorem Opening.eq_copied {entries : List (String × α)} {t : FaultTree} {start : MapSlot α}
    (h : Opening entries t start) : start = .copied entries t := by
  cases h <;> rfl

/-- A run begins with a map that has no key twice. -/
theorem Opening.nodup_keys {entries : List (String × α)} {t : FaultTree} {start : MapSlot α}
    (h : Opening entries t start) : (Assoc.keys entries).Nodup := by
  cases h with
  | fresh => exact List.nodup_nil
  | copied hentries _ _ => exact hentries

/-- A run begins with a canonical tree. -/
theorem Opening.canonical {entries : List (String × α)} {t : FaultTree} {start : MapSlot α}
    (h : Opening entries t start) : Canonical t := by
  cases h with
  | fresh => trivial
  | copied _ ht _ => exact ht.canonical

/-- Below the tree at the beginning of a run there are only keys of the map. -/
theorem Opening.exists_of_child? {entries : List (String × α)} {t : FaultTree} {start : MapSlot α}
    (h : Opening entries t start) {key : FaultKey} {v : FaultTree} (hv : t.child? key = some v) :
    ∃ k ∈ Assoc.keys entries, key = .key k := by
  cases h with
  | fresh => cases hv
  | copied _ _ hkeys => exact hkeys key (Assoc.mem_keys_of_mem (Assoc.mem_of_get?_eq_some hv))

/-- A finished map and its tree, after calls to a field that began with `entries` and the tree `t`,
apart from what stands below the tree. What an entry is stored as is `value` of what was put. -/
structure IsRun (value : α × Option Fault → α) (entries : List (String × α)) (t : FaultTree)
    (cs : List (MapCall α)) (items : List (String × α)) (u : FaultTree) : Prop where
  /-- The keys of the last whole are in front, and behind them those keys that were put and are not
  among them, in the order in which they were first put. -/
  keys_eq : Assoc.keys items = Assoc.keys (MapCall.lastWhole entries t cs).1 ++
    (Assoc.keys (MapCall.puts cs)).eraseDups.filter
      (· ∉ Assoc.keys (MapCall.lastWhole entries t cs).1)
  /-- No key is repeated. -/
  nodup_keys : (Assoc.keys items).Nodup
  /-- A key has what was put there last, and if nothing was what the whole has there. -/
  get?_eq : ∀ k, Assoc.get? k items =
    ((MapCall.lastPut? k cs).map value).or (Assoc.get? k (MapCall.lastWhole entries t cs).1)
  /-- The field's own fault is that for which the last whole fell back. -/
  own_eq : u.fault? = (MapCall.lastWhole entries t cs).2
  /-- There is nothing but keys of the map below the tree. -/
  exists_of_child? : ∀ key v, u.child? key = some v → ∃ k ∈ Assoc.keys items, key = .key k

/-- A finished map of plain values and its tree. -/
structure IsPlainRun (entries : List (String × α)) (t : FaultTree) (cs : List (MapCall α))
    (items : List (String × α)) (u : FaultTree) : Prop
    extends IsRun (·.1) entries t cs items u where
  /-- A key that was put has a leaf with its cause just if the last put fell back. -/
  child?_put : ∀ k p, MapCall.lastPut? k cs = some p → u.child? (.key k) = p.2.map leaf
  /-- In a whole that was not replaced the other keys have the trees that came with it. -/
  child?_kept : (∀ c ∈ cs, c.isWhole = false) → ∀ k, MapCall.lastPut? k cs = none →
    u.child? (.key k) = t.child? (.key k)
  /-- In a whole that was replaced they have no trees. -/
  child?_replaced : (∃ c ∈ cs, c.isWhole = true) → ∀ k, MapCall.lastPut? k cs = none →
    u.child? (.key k) = none

/-- A finished map of parts and its tree. Fallbacks that were put are marked. -/
structure IsPartsRun [HasFaults α] (entries : List (String × α)) (t : FaultTree)
    (cs : List (MapCall α)) (items : List (String × α)) (u : FaultTree) : Prop
    extends IsRun HasFaults.standIn entries t cs items u where
  /-- Each key has the own tree of the part there unless that is empty. -/
  child?_part : ∀ k, u.child? (.key k) =
    ((Assoc.get? k items).map HasFaults.faults).filter fun v => v.hasFaults

/-- What holds of the finished map in both cases, where `keep` is what is kept of an entry that was
put. -/
theorem isRun_ended {entries : List (String × α)} {t : FaultTree} {cs : List (MapCall α)}
    (hnodup : (Assoc.keys (MapCall.lastWhole entries t cs).1).Nodup)
    (keep : α × Option Fault → α × Option Fault) {slot : MapSlot α}
    (hslot : slot = ended entries t (cs.filterMap MapCall.whole?).getLast?
      ((MapCall.puts cs).map fun e => (e.1, keep e.2)))
    {u : FaultTree} (hown : u.fault? = slot.bulkFaults.fault?)
    (hchild : ∀ key v, u.child? key = some v → ∃ k ∈ Assoc.keys slot.entries, key = .key k) :
    IsRun (fun e => (keep e).1) entries t cs slot.entries u := by
  subst hslot
  constructor
  · rw [keys_entries_ended, Assoc.keys_map_value]
    rfl
  · exact Assoc.nodup_keys_extend hnodup
  · intro k
    rw [get?_entries_ended, ← List.map_reverse, Assoc.get?_map_value, Option.map_map,
      MapCall.lastPut?_eq]
    rfl
  · exact hown.trans (fault?_cameWith t entries _)
  · exact hchild

/-- Below the tree of a finished map of plain values there is nothing but keys of the map. -/
theorem Opening.exists_of_child?_faults {entries : List (String × α)} {t : FaultTree}
    {start : MapSlot α} (h : Opening entries t start)
    {last : Option (List (String × α) × Option Fault)} {es : List (String × (α × Option Fault))}
    {key : FaultKey} {v : FaultTree} (hv : (ended entries t last es).faults.child? key = some v) :
    ∃ k ∈ Assoc.keys (ended entries t last es).entries, key = .key k := by
  -- what came with a whole that was not replaced stands under keys of that whole
  have hkept : (t.cameWith last).child? key = some v →
      ∃ k ∈ Assoc.keys (ended entries t last es).entries, key = .key k := by
    intro hcame
    cases last with
    | none =>
        obtain ⟨k, hk, rfl⟩ := h.exists_of_child? hcame
        exact ⟨k, mem_keys_entries_ended.mpr (Or.inl hk), rfl⟩
    | some w =>
        rw [child?_cameWith_some] at hcame
        cases hcame
  by_cases hkey : ∃ k, key = .key k
  · obtain ⟨k, rfl⟩ := hkey
    rw [child?_faults_key h.canonical] at hv
    cases hput : Assoc.get? k es.reverse with
    | none =>
        rw [hput] at hv
        exact hkept hv
    | some p =>
        have hmem : k ∈ Assoc.keys es :=
          Assoc.mem_keys_reverse.mp (Assoc.mem_keys_of_mem (Assoc.mem_of_get?_eq_some hput))
        exact ⟨k, mem_keys_entries_ended.mpr (Or.inr hmem), rfl⟩
  · rw [child?_faults_other h.canonical (not_exists.mp hkey)] at hv
    exact hkept hv

/-- A finished map of plain values. -/
theorem isPlainRun_foldl {entries : List (String × α)} {t : FaultTree} {start : MapSlot α}
    (h : Opening entries t start) {cs : List (MapCall α)}
    (hcs : ∀ c ∈ cs, ∀ w, c.whole? = some w → (Assoc.keys w.1).Nodup) :
    IsPlainRun entries t cs (cs.foldl MapCall.applied (.copied entries t)).entries
      (cs.foldl MapCall.applied (.copied entries t)).faults := by
  have hslot := foldl_applied entries t cs
  have hnodup := MapCall.nodup_keys_lastWhole h.nodup_keys t hcs
  refine ⟨isRun_ended hnodup id ?_ (fault?_merge _ _) ?_, ?_, ?_, ?_⟩
  · rw [hslot]
    exact congrArg _ (List.map_id _).symm
  · intro key v hv
    rw [hslot] at hv ⊢
    exact h.exists_of_child?_faults hv
  · intro k p hp
    rw [MapCall.lastPut?_eq] at hp
    rw [hslot, child?_faults_key h.canonical, hp]
  · intro hsingle k hk
    rw [MapCall.lastPut?_eq] at hk
    rw [hslot, child?_faults_key h.canonical, hk]
    exact child?_cameWith_of_kept t (fun c hc => c.isSome_whole?.trans (hsingle c hc)) _
  · rintro ⟨c, hc, hwhole⟩ k hk
    rw [MapCall.lastPut?_eq] at hk
    rw [hslot, child?_faults_key h.canonical, hk]
    exact child?_cameWith_of_replaced t ⟨c, hc, c.isSome_whole?.trans hwhole⟩ _

/-- A finished map of parts. -/
theorem isPartsRun_after [HasFaults α] {entries : List (String × α)} {t : FaultTree}
    {start : MapSlot α} (h : Opening entries t start) {cs : List (MapCall α)}
    (hcs : ∀ c ∈ cs, ∀ w, c.whole? = some w → (Assoc.keys w.1).Nodup) :
    IsPartsRun entries t cs ((Shape.namedParts α).after (.copied entries t) cs).entries
      ((Shape.namedParts α).after (.copied entries t) cs).partFaults := by
  have hslot := after_namedParts entries t cs
  have hnodup := MapCall.nodup_keys_lastWhole h.nodup_keys t hcs
  have hsound : (Shape.namedParts α).Sound ((Shape.namedParts α).after (.copied entries t) cs) := by
    rw [hslot]
    exact hnodup
  obtain ⟨-, hchild, -⟩ := Shape.coherent_namedParts hsound
  refine ⟨isRun_ended hnodup (fun e => (HasFaults.standIn e, none)) hslot (fault?_merge _ _) ?_, ?_⟩
  · intro key v hv
    have hkey := (hchild key).symm.trans hv
    cases key with
    | key k =>
        obtain ⟨a, ha, -⟩ := Option.map_eq_some_iff.mp hkey
        have hget := Option.eq_some_of_filter_eq_some ha
        exact ⟨k, Assoc.mem_keys_of_mem (Assoc.mem_of_get?_eq_some hget), rfl⟩
    | field name | index i | prior => cases hkey
  · intro k
    rw [Shape.filter_map_faults]
    exact hchild (.key k)

end MapSlot

/-- Calls to a map field in a tolerant build, in any order, where the field is fresh or was taken
over. All of them come through, in a builder and in storage. The finished map has the keys of the
last whole and behind them the others that were put, in the order in which they first were, with
what was put there last. Its own fault is that of the last whole; a map of plain values has the
faults of the last puts, and under keys that were not put those of a whole that was taken over and
not replaced; a map of parts has the parts' own trees. -/
theorem map_run {scope : Scope} (hscope : scope.mode = .tolerant) (key : FaultKey) {α : Type}
    {entries : List (String × α)} {t : FaultTree} {start : MapSlot α}
    (h : MapSlot.Opening entries t start) (cs : List (MapCall α))
    (hcs : ∀ c ∈ cs, ∀ w, c.whole? = some w → (Assoc.keys w.1).Nodup) :
    (∃ slot, MapSlot.RunsTo scope key start cs slot ∧
      MapSlot.IsPlainRun entries t cs slot.entries slot.faults) ∧
    ∀ [HasFaults α], ∃ slot, (Shape.namedParts α).RunsTo scope key start cs slot ∧
      MapSlot.IsPartsRun entries t cs slot.entries slot.partFaults := by
  obtain rfl := h.eq_copied
  constructor
  · exact ⟨_, MapSlot.runsTo_foldl hscope key _ cs, MapSlot.isPlainRun_foldl h hcs⟩
  · exact ⟨_, Shape.runsTo_after hscope key (.namedParts α) _ cs, MapSlot.isPartsRun_after h hcs⟩

/-- The tree of a map whose entry at `b` fell back. -/
def entryFellBack : FaultTree := merge none [(.key "b", leaf ⟨.text "old"⟩)]

/-- A copy of this map is one that a run may begin with. -/
theorem opening_entryFellBack :
    MapSlot.Opening [("a", 1), ("b", 2)] entryFellBack
      (.copied [("a", 1), ("b", 2)] entryFellBack) := by
  constructor
  · decide
  · apply Composed.merge
    intro c hc
    rw [List.mem_singleton.mp hc]
    exact Composed.leaf _
  · intro key hkey
    exact ⟨"b", by decide, List.mem_singleton.mp hkey⟩

/-- Such a map is given three values for one key, of which the last falls back again, and a value
for the key of another entry. A map of nodes is given a node in place of one that could not be read,
and then a whole that has its key at the end. -/
theorem map_run_interleaved :
    let scope : Scope := ⟨"Sample", .tolerant⟩
    (∃ slot, MapSlot.RunsTo scope (.field "value") (.copied [("a", 1), ("b", 2)] entryFellBack)
        [.supplyOne "c" (.error (.text "new")) 0, .put "c" 5, .put "a" 9,
          .supplyOne "c" (.error (.text "newer")) 6] slot ∧
      Assoc.keys slot.entries = ["a", "b", "c"] ∧ Assoc.get? "c" slot.entries = some 6 ∧
      slot.faults.fault? = none ∧ slot.faults.child? (.key "a") = none ∧
      slot.faults.child? (.key "b") = some (leaf ⟨.text "old"⟩) ∧
      slot.faults.child? (.key "c") = some (leaf ⟨.text "newer"⟩)) ∧
    ∃ slot, (Shape.namedParts Node).RunsTo scope (.field "value") .unset
        [.supplyOne "x" (.error (.text "no node")) (Entity.placeholder Node),
          .setAll [("y", Entity.placeholder Node), ("x", Entity.placeholder Node)]] slot ∧
      Assoc.keys slot.entries = ["y", "x"] ∧
      slot.partFaults.child? (.key "x") =
        some ((HasFaults.faults (Entity.placeholder Node)).inject ⟨.text "no node"⟩) := by
  intro scope
  have hscope : scope.mode = .tolerant := rfl
  obtain ⟨slot, hruns, hrun⟩ := (map_run hscope (.field "value") opening_entryFellBack
    [.supplyOne "c" (.error (.text "new")) 0, .put "c" 5, .put "a" 9,
      .supplyOne "c" (.error (.text "newer")) 6] (by simp [MapCall.whole?])).1
  obtain ⟨nodes, hnodesRun, hnodes⟩ := (map_run hscope (.field "value")
    (MapSlot.Opening.fresh (α := Node))
    [.supplyOne "x" (.error (.text "no node")) (Entity.placeholder Node),
      .setAll [("y", Entity.placeholder Node), ("x", Entity.placeholder Node)]]
    (by simp [MapCall.whole?])).2
  refine ⟨⟨slot, hruns, hrun.keys_eq, hrun.get?_eq "c", hrun.own_eq, ?_, ?_, ?_⟩,
    nodes, hnodesRun, hnodes.keys_eq, ?_⟩
  · exact hrun.child?_put "a" _ rfl
  · exact hrun.child?_kept (by simp [MapCall.isWhole]) "b" rfl
  · exact hrun.child?_put "c" _ rfl
  · rw [hnodes.child?_part, hnodes.get?_eq]
    rfl

end Flowsheet
