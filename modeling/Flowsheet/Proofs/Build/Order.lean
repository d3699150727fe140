import Flowsheet.Proofs.Assoc
import Flowsheet.Proofs.Build.Run
import Flowsheet.Model.Workflow

/-!
# The order of setter calls

A tolerant builder does not remember in which order it was called. Runs of calls that agree field by
field (`Shape.Agree`) end in the same builder and so in the same entity, faults and their order
included (`order_independence`). For a field with at most one value it is the last call that counts;
for a list the last call about the whole and the calls about elements; for a map the last call about
the whole, the order in which keys are first put, and the last put of each key.

Calls about a field as a whole and calls about single members write to different parts of its slot,
so the two kinds of calls commute. `SameWhole` and `SameMembers` compare slots in one part only.
Calls about the whole leave the members as they are, and the last of them decides about the whole
(`sameWhole_after`). Calls about members leave the whole as it is; in a list they append, in a map
they write entries (`put_after`), for which `Assoc.extend_congr` says what counts.
-/

namespace Flowsheet

/-! ### Kinds of calls -/

/-- Whether a call is about the list as a whole. -/
def ListCall.isWhole {α : Type} : ListCall α → Bool
  | .setAll _ | .supplyAll _ _ => true
  | .add _ | .supplyOne _ _ => false

/-- Whether a call is about the map as a whole. -/
def MapCall.isWhole {α : Type} : MapCall α → Bool
  | .setAll _ | .supplyAll _ _ => true
  | .put _ _ | .supplyOne _ _ _ => false

/-- The key that a call puts. -/
def MapCall.putKey? {α : Type} : MapCall α → Option String
  | .setAll _ | .supplyAll _ _ => none
  | .put k _ | .supplyOne k _ _ => some k

/-- The entry that a call leaves in a tolerant build. -/
def MapCall.write? {α : Type} [HasFaults α] : MapCall α → Option (String × α)
  | .setAll _ | .supplyAll _ _ => none
  | .put k v | .supplyOne k (.ok v) _ => some (k, v)
  | .supplyOne k (.error cause) fallback => some (k, HasFaults.mark ⟨cause⟩ fallback)

/-- What a call writes to a map is under the key that it puts. -/
theorem MapCall.map_write? {α : Type} [HasFaults α] (c : MapCall α) :
    c.write?.map (·.1) = c.putKey? := by
  rcases c with es | ⟨e | es, fallback⟩ | ⟨k, v⟩ | ⟨k, e | v, fallback⟩ <;> rfl

/-- The keys that calls write to are those that they put, in order. -/
theorem MapCall.keys_writes {α : Type} [HasFaults α] (cs : List (MapCall α)) :
    Assoc.keys (cs.filterMap write?) = cs.filterMap putKey? := by
  have hentry : (putKey? : MapCall α → Option String) = fun c => c.write?.map (·.1) := by
    funext c
    exact c.map_write?.symm
  rw [hentry, Assoc.keys, List.map_filterMap]

/-- The last write at a key is that of the last call that puts the key. -/
theorem MapCall.get?_writes {α : Type} [HasFaults α] (k : String) (cs : List (MapCall α)) :
    Assoc.get? k (cs.filterMap write?).reverse =
      ((cs.filter fun c => c.putKey? = some k).getLast?.bind write?).map (·.2) := by
  induction cs using List.reverseRecOn with
  | nil => rfl
  | append_singleton cs c ih =>
      rw [List.filterMap_append, List.reverse_append, List.filter_append]
      have hentry := c.map_write?
      cases hwrite : c.write? with
      | none =>
          have hnone : c.putKey? = none := by simpa [hwrite] using hentry.symm
          simpa [hwrite, hnone] using ih
      | some e =>
          have hsome : c.putKey? = some e.1 := by simpa [hwrite] using hentry.symm
          obtain ⟨j, v⟩ := e
          by_cases hk : j = k
          · simp [hwrite, hsome, hk, Assoc.get?_cons]
          · simpa [hwrite, hsome, hk, Assoc.get?_cons] using ih

namespace Shape

/-- Whether a call is about the field as a whole, and not about one member of it. -/
def isWhole : (s : Shape) → s.Call → Bool
  | required _, _ | optional _, _ | @requiredPart _ _, _ | @optionalPart _ _, _ => true
  | list _, c | @parts _ _, c => ListCall.isWhole c
  | @namedParts _ _, c => MapCall.isWhole c

/-- Calls to one field that may differ only where later calls take over: in all but the last call
to a field with at most one value; in a list in all but the last call about the whole; in a map in
all but the last call about the whole, the order in which keys are first put, and the last put of
each key. -/
def Agree : (s : Shape) → List s.Call → List s.Call → Prop
  | required _, cs, ds | optional _, cs, ds | @requiredPart _ _, cs, ds
  | @optionalPart _ _, cs, ds => cs.getLast? = ds.getLast?
  | list _, cs, ds | @parts _ _, cs, ds =>
    (cs.filter ListCall.isWhole).getLast? = (ds.filter ListCall.isWhole).getLast? ∧
      cs.filter (fun c => !c.isWhole) = ds.filter (fun c => !c.isWhole)
  | @namedParts _ _, cs, ds =>
    (cs.filter MapCall.isWhole).getLast? = (ds.filter MapCall.isWhole).getLast? ∧
      (cs.filterMap MapCall.putKey?).eraseDups = (ds.filterMap MapCall.putKey?).eraseDups ∧
      ∀ k, (cs.filter fun c => c.putKey? = some k).getLast? =
        (ds.filter fun c => c.putKey? = some k).getLast?

/-- The same calls about the whole in the same order, and the same calls about members in the same
order, mixed in any two ways. -/
def Interleaved (s : Shape) (cs ds : List s.Call) : Prop :=
  cs.filter s.isWhole = ds.filter s.isWhole ∧
    cs.filter (fun c => !s.isWhole c) = ds.filter (fun c => !s.isWhole c)

/-- In a field of which all calls are about the whole, none is left out. -/
theorem filter_isWhole_eq_self {s : Shape} (h : ∀ c, s.isWhole c = true) (cs : List s.Call) :
    cs.filter s.isWhole = cs :=
  List.filter_eq_self.mpr fun c _ => h c

/-- How calls are mixed does not matter for what counts. -/
theorem Interleaved.agree {s : Shape} {cs ds : List s.Call} (h : s.Interleaved cs ds) :
    s.Agree cs ds := by
  obtain ⟨hwhole, hmembers⟩ := h
  cases s with
  | required _ | optional _ | requiredPart _ | optionalPart _ =>
      rw [filter_isWhole_eq_self (fun _ => rfl), filter_isWhole_eq_self (fun _ => rfl)] at hwhole
      exact congrArg List.getLast? hwhole
  | list _ | parts _ => exact ⟨congrArg List.getLast? hwhole, hmembers⟩
  | namedParts α =>
      -- calls that put an entry are calls about members
      have hput : ∀ es : List (MapCall α),
          (es.filter fun c => !c.isWhole).filterMap MapCall.putKey? =
            es.filterMap MapCall.putKey? := by
        intro es
        rw [List.filterMap_filter]
        congr 1
        funext c
        rcases c with as | ⟨e | as, fallback⟩ | ⟨k, v⟩ | ⟨k, e | v, fallback⟩ <;> rfl
      have hkey : ∀ (es : List (MapCall α)) (k : String),
          (es.filter fun c => !c.isWhole).filter (fun c => c.putKey? = some k) =
            es.filter fun c => c.putKey? = some k := by
        intro es k
        rw [List.filter_filter]
        congr 1
        funext c
        rcases c with as | ⟨e | as, fallback⟩ | ⟨k, v⟩ | ⟨k, e | v, fallback⟩ <;>
          simp [MapCall.putKey?, MapCall.isWhole]
      refine ⟨congrArg List.getLast? hwhole, ?_, fun k => ?_⟩
      · rw [← hput cs, ← hput ds]
        exact congrArg (fun es => (List.filterMap MapCall.putKey? es).eraseDups) hmembers
      · rw [← hkey cs k, ← hkey ds k]
        exact congrArg (fun es => (List.filter (fun c => decide (c.putKey? = some k)) es).getLast?)
          hmembers

/-! ### The two parts of a slot -/

/-- The slots agree in what calls about the whole write. -/
def SameWhole : (s : Shape) → s.Slot → s.Slot → Prop
  | required _, a, b | optional _, a, b | @requiredPart _ _, a, b | @optionalPart _ _, a, b => a = b
  | list _, a, b | @parts _ _, a, b => a.bulk = b.bulk ∧ a.bulkFaults = b.bulkFaults
  | @namedParts _ _, a, b => a.bulk = b.bulk ∧ a.bulkFaults = b.bulkFaults

/-- The slots agree in what calls about members write. -/
def SameMembers : (s : Shape) → s.Slot → s.Slot → Prop
  | required _, _, _ | optional _, _, _ | @requiredPart _ _, _, _ | @optionalPart _ _, _, _ => True
  | list _, a, b | @parts _ _, a, b => a.added = b.added
  | @namedParts _ _, a, b => a.put = b.put ∧ a.putFaults = b.putFaults

/-- Slots that agree in both parts are the same. -/
theorem eq_of_same {s : Shape} {a b : s.Slot} (hwhole : s.SameWhole a b)
    (hmembers : s.SameMembers a b) : a = b := by
  cases s with
  | required _ | optional _ | requiredPart _ | optionalPart _ => exact hwhole
  | list _ | parts _ =>
      obtain ⟨bulk, bulkFaults, added⟩ := a
      obtain ⟨rfl, rfl⟩ := hwhole
      cases hmembers
      rfl
  | namedParts _ =>
      obtain ⟨bulk, bulkFaults, put, putFaults⟩ := a
      obtain ⟨rfl, rfl⟩ := hwhole
      obtain ⟨rfl, rfl⟩ := hmembers
      rfl

/-- Every slot agrees with itself in the whole. -/
theorem SameWhole.refl {s : Shape} (a : s.Slot) : s.SameWhole a a := by
  cases s with
  | required _ | optional _ | requiredPart _ | optionalPart _ => rfl
  | list _ | parts _ | namedParts _ => exact ⟨rfl, rfl⟩

/-- Agreement in the whole does not depend on the direction. -/
theorem SameWhole.symm {s : Shape} {a b : s.Slot} (h : s.SameWhole a b) : s.SameWhole b a := by
  cases s with
  | required _ | optional _ | requiredPart _ | optionalPart _ => exact Eq.symm h
  | list _ | parts _ | namedParts _ => exact ⟨h.1.symm, h.2.symm⟩

/-- Agreement in the whole is passed on. -/
theorem SameWhole.trans {s : Shape} {a b c : s.Slot} (h : s.SameWhole a b)
    (h' : s.SameWhole b c) : s.SameWhole a c := by
  cases s with
  | required _ | optional _ | requiredPart _ | optionalPart _ => exact Eq.trans h h'
  | list _ | parts _ | namedParts _ => exact ⟨h.1.trans h'.1, h.2.trans h'.2⟩

/-- A call about the whole decides about the whole, whatever the slot was. -/
theorem sameWhole_applied {s : Shape} {c : s.Call} (hc : s.isWhole c = true) (a b : s.Slot) :
    s.SameWhole (s.applied c a) (s.applied c b) := by
  cases s with
  | required _ | optional _ => rcases c with v | ⟨e | v, fallback⟩ <;> rfl
  | requiredPart _ | optionalPart _ => rcases c with v | ⟨e | v, _ | fallback⟩ <;> rfl
  | list _ | parts _ =>
      rcases c with vs | ⟨e | vs, fallback⟩ | v | ⟨v, fallback⟩
      · exact ⟨rfl, rfl⟩
      · exact ⟨rfl, rfl⟩
      · exact ⟨rfl, rfl⟩
      · cases hc
      · cases hc
  | namedParts _ =>
      rcases c with es | ⟨e | es, fallback⟩ | ⟨k, v⟩ | ⟨k, v, fallback⟩
      · exact ⟨rfl, rfl⟩
      · exact ⟨rfl, rfl⟩
      · exact ⟨rfl, rfl⟩
      · cases hc
      · cases hc

/-- A call about a member leaves the whole as it is. -/
theorem sameWhole_applied_self {s : Shape} {c : s.Call} (hc : s.isWhole c = false) (a : s.Slot) :
    s.SameWhole (s.applied c a) a := by
  cases s with
  | required _ | optional _ | requiredPart _ | optionalPart _ => cases hc
  | list _ | parts _ =>
      rcases c with vs | ⟨vs, fallback⟩ | v | ⟨e | v, fallback⟩
      · cases hc
      · cases hc
      · exact ⟨rfl, rfl⟩
      · exact ⟨rfl, rfl⟩
      · exact ⟨rfl, rfl⟩
  | namedParts _ =>
      rcases c with es | ⟨es, fallback⟩ | ⟨k, v⟩ | ⟨k, e | v, fallback⟩
      · cases hc
      · cases hc
      · exact ⟨rfl, rfl⟩
      · exact ⟨rfl, rfl⟩
      · exact ⟨rfl, rfl⟩

/-- Every slot agrees with itself in the members. -/
theorem SameMembers.refl {s : Shape} (a : s.Slot) : s.SameMembers a a := by
  cases s with
  | required _ | optional _ | requiredPart _ | optionalPart _ => trivial
  | list _ | parts _ => rfl
  | namedParts _ => exact ⟨rfl, rfl⟩

/-- Agreement in the members does not depend on the direction. -/
theorem SameMembers.symm {s : Shape} {a b : s.Slot} (h : s.SameMembers a b) :
    s.SameMembers b a := by
  cases s with
  | required _ | optional _ | requiredPart _ | optionalPart _ => trivial
  | list _ | parts _ => exact Eq.symm h
  | namedParts _ => exact ⟨h.1.symm, h.2.symm⟩

/-- Agreement in the members is passed on. -/
theorem SameMembers.trans {s : Shape} {a b c : s.Slot} (h : s.SameMembers a b)
    (h' : s.SameMembers b c) : s.SameMembers a c := by
  cases s with
  | required _ | optional _ | requiredPart _ | optionalPart _ => trivial
  | list _ | parts _ => exact Eq.trans h h'
  | namedParts _ => exact ⟨h.1.trans h'.1, h.2.trans h'.2⟩

/-- A call about the whole leaves the members as they are. -/
theorem sameMembers_applied_self {s : Shape} {c : s.Call} (hc : s.isWhole c = true) (a : s.Slot) :
    s.SameMembers (s.applied c a) a := by
  cases s with
  | required _ | optional _ | requiredPart _ | optionalPart _ => trivial
  | list _ | parts _ =>
      rcases c with vs | ⟨e | vs, fallback⟩ | v | ⟨v, fallback⟩
      · rfl
      · rfl
      · rfl
      · cases hc
      · cases hc
  | namedParts _ =>
      rcases c with es | ⟨e | es, fallback⟩ | ⟨k, v⟩ | ⟨k, v, fallback⟩
      · exact ⟨rfl, rfl⟩
      · exact ⟨rfl, rfl⟩
      · exact ⟨rfl, rfl⟩
      · cases hc
      · cases hc

/-- What a call does to the members depends on the members only. -/
theorem sameMembers_applied {s : Shape} (c : s.Call) {a b : s.Slot} (h : s.SameMembers a b) :
    s.SameMembers (s.applied c a) (s.applied c b) := by
  cases s with
  | required _ | optional _ | requiredPart _ | optionalPart _ => trivial
  | list _ | parts _ =>
      have hadded : a.added = b.added := h
      rcases c with vs | ⟨e | vs, fallback⟩ | v | ⟨e | v, fallback⟩
      · exact h
      · exact h
      · exact h
      · exact congrArg (· ++ _) hadded
      · exact congrArg (· ++ _) hadded
      · exact congrArg (· ++ _) hadded
  | namedParts _ =>
      obtain ⟨hput, hputFaults⟩ := h
      rcases c with es | ⟨e | es, fallback⟩ | ⟨k, v⟩ | ⟨k, e | v, fallback⟩
      · exact ⟨hput, hputFaults⟩
      · exact ⟨hput, hputFaults⟩
      · exact ⟨hput, hputFaults⟩
      · exact ⟨congrArg (Assoc.insert _ _) hput, congrArg (Assoc.erase _) hputFaults⟩
      · exact ⟨congrArg (Assoc.insert _ _) hput, congrArg (Assoc.erase _) hputFaults⟩
      · exact ⟨congrArg (Assoc.insert _ _) hput, congrArg (Assoc.erase _) hputFaults⟩

/-! ### Runs of calls to one field -/

/-- The slot after calls that are not refused. -/
def after (s : Shape) (slot : s.Slot) (cs : List s.Call) : s.Slot :=
  cs.foldl (fun slot c => s.applied c slot) slot

/-- A run begins with its first call. -/
theorem after_cons (s : Shape) (slot : s.Slot) (c : s.Call) (cs : List s.Call) :
    s.after slot (c :: cs) = s.after (s.applied c slot) cs := rfl

/-- A run ends with its last call. -/
theorem after_concat (s : Shape) (slot : s.Slot) (cs : List s.Call) (c : s.Call) :
    s.after slot (cs ++ [c]) = s.applied c (s.after slot cs) :=
  List.foldl_append

/-- About the whole the last call about it decides. -/
theorem sameWhole_after {s : Shape} (slot : s.Slot) (cs : List s.Call) :
    s.SameWhole (s.after slot cs)
      (s.after slot ((cs.filter s.isWhole).getLast?.toList)) := by
  induction cs using List.reverseRecOn with
  | nil => exact SameWhole.refl slot
  | append_singleton cs c ih =>
      rw [after_concat, List.filter_append, List.filter_cons, List.filter_nil]
      cases hc : s.isWhole c with
      | true =>
          rw [if_pos rfl, List.getLast?_concat]
          exact sameWhole_applied hc _ _
      | false =>
          rw [if_neg Bool.false_ne_true, List.append_nil]
          exact (sameWhole_applied_self hc _).trans ih

/-- About the members the calls about members decide. -/
theorem sameMembers_after {s : Shape} (slot : s.Slot) (cs : List s.Call) :
    s.SameMembers (s.after slot cs) (s.after slot (cs.filter fun c => !s.isWhole c)) := by
  induction cs using List.reverseRecOn with
  | nil => exact SameMembers.refl slot
  | append_singleton cs c ih =>
      rw [after_concat, List.filter_append, List.filter_cons, List.filter_nil]
      cases hc : s.isWhole c with
      | true =>
          rw [Bool.not_true, if_neg Bool.false_ne_true, List.append_nil]
          exact (sameMembers_applied_self hc _).trans ih
      | false =>
          rw [Bool.not_false, if_pos rfl, after_concat]
          exact sameMembers_applied c ih

/-- Runs with the same calls about members leave slots that agree in the members. -/
theorem sameMembers_after_congr {s : Shape} (slot : s.Slot) {cs ds : List s.Call}
    (h : (cs.filter fun c => !s.isWhole c) = ds.filter fun c => !s.isWhole c) :
    s.SameMembers (s.after slot cs) (s.after slot ds) := by
  have hds := (sameMembers_after slot ds).symm
  rw [← h] at hds
  exact (sameMembers_after slot cs).trans hds

section

variable {α : Type} [HasFaults α]

/-- Calls to a map write the entries that they put. -/
theorem put_after (slot : MapSlot α) (cs : List (MapCall α)) :
    ((namedParts α).after slot cs).put = Assoc.extend slot.put (cs.filterMap MapCall.write?) := by
  induction cs using List.reverseRecOn with
  | nil => rfl
  | append_singleton cs c ih =>
      rw [after_concat, List.filterMap_append, Assoc.extend_append, ← ih]
      rcases c with es | ⟨e | es, fallback⟩ | ⟨k, v⟩ | ⟨k, e | v, fallback⟩ <;> rfl

/-- A call to a map of parts takes the fault away that was noted under the key that it puts. -/
theorem putFaults_applied (c : MapCall α) (slot : MapSlot α) :
    ((namedParts α).applied c slot).putFaults =
      slot.putFaults.filter fun e => c.putKey? ≠ some e.1 := by
  have hnone : slot.putFaults = slot.putFaults.filter fun e => (none : Option String) ≠ some e.1 :=
    (List.filter_eq_self.mpr fun e _ => by simp).symm
  have hsome : ∀ k, Assoc.erase k slot.putFaults =
      slot.putFaults.filter fun e => some k ≠ some e.1 := by
    intro k
    simp [Assoc.erase, eq_comm]
  rcases c with es | ⟨e | es, fallback⟩ | ⟨k, v⟩ | ⟨k, e | v, fallback⟩
  · exact hnone
  · exact hnone
  · exact hnone
  · exact hsome k
  · exact hsome k
  · exact hsome k

/-- Calls to a map drop the faults that were put for their keys before. -/
theorem putFaults_after (slot : MapSlot α) (cs : List (MapCall α)) :
    ((namedParts α).after slot cs).putFaults =
      slot.putFaults.filter fun e => e.1 ∉ (cs.filterMap MapCall.putKey?).eraseDups := by
  simp only [List.mem_eraseDups]
  induction cs using List.reverseRecOn with
  | nil => exact (List.filter_eq_self.mpr fun e _ => decide_eq_true List.not_mem_nil).symm
  | append_singleton cs c ih =>
      rw [after_concat, putFaults_applied, ih, List.filter_filter]
      congr 1
      funext e
      cases hentry : c.putKey? with
      | none => simp [hentry]
      | some k => simp [hentry, eq_comm, and_comm]

end

/-- Runs that agree leave the same slot. -/
theorem after_congr {s : Shape} {cs ds : List s.Call} (h : s.Agree cs ds) (slot : s.Slot) :
    s.after slot cs = s.after slot ds := by
  have hlast : (cs.filter s.isWhole).getLast? = (ds.filter s.isWhole).getLast? := by
    cases s with
    | required _ | optional _ | requiredPart _ | optionalPart _ =>
        rw [filter_isWhole_eq_self (fun _ => rfl), filter_isWhole_eq_self (fun _ => rfl)]
        exact h
    | list _ | parts _ | namedParts _ => exact h.1
  -- the two parts of a slot are written by different calls, so they are compared apart
  have hwhole : s.SameWhole (s.after slot cs) (s.after slot ds) := by
    have hds := (sameWhole_after slot ds).symm
    rw [← hlast] at hds
    exact (sameWhole_after slot cs).trans hds
  have hmembers : s.SameMembers (s.after slot cs) (s.after slot ds) := by
    cases s with
    | required _ | optional _ | requiredPart _ | optionalPart _ => trivial
    | list _ | parts _ =>
        apply sameMembers_after_congr
        exact h.2
    | namedParts α =>
        obtain ⟨-, hkeys, hputs⟩ := h
        constructor
        · rw [put_after, put_after]
          apply Assoc.extend_congr
          · rw [MapCall.keys_writes, MapCall.keys_writes, hkeys]
          · intro k
            rw [MapCall.get?_writes, MapCall.get?_writes, hputs]
        · rw [putFaults_after, putFaults_after, hkeys]
  exact eq_of_same hwhole hmembers

end Shape

namespace Builder

variable {L : Layout}

/-! ### Runs of calls to a builder -/

/-- The calls to one field, in order. -/
def callsTo (f : L.Field) (calls : List (Call L)) : List (L.shape f).Call :=
  calls.filterMap fun c => if h : c.field = f then some (h ▸ c.setter) else none

/-- What a tolerant builder knows of a field depends on the calls to that field only. -/
theorem slot_attempts {b : Builder L} (hb : b.mode = .tolerant) (calls : List (Call L))
    (f : L.Field) :
    (b.attempts calls).slot f = (L.shape f).after (b.slot f) (callsTo f calls) := by
  induction calls generalizing b with
  | nil => rfl
  | cons c rest ih =>
      have hattempt : b.attempt c = b.applied c := by rw [attempt, call_tolerant hb]
      have hrest := ih (b := b.applied c) hb
      rw [attempts, List.foldl_cons, hattempt]
      refine hrest.trans ?_
      by_cases hf : c.field = f
      · subst hf
        simp [callsTo, applied, Shape.after_cons]
      · simp [callsTo, applied, slot_setSlot_of_ne _ _ (Ne.symm hf), hf]

/-- The calls to a field in two portions are those in the first and those in the second. -/
theorem callsTo_append (f : L.Field) (pre post : List (Call L)) :
    callsTo f (pre ++ post) = callsTo f pre ++ callsTo f post :=
  List.filterMap_append

/-- A call to the field counts. -/
theorem callsTo_cons_self (c : Call L) (calls : List (Call L)) :
    callsTo c.field (c :: calls) = c.setter :: callsTo c.field calls := by
  simp [callsTo]

/-- A call to another field does not count. -/
theorem callsTo_cons_of_ne {f : L.Field} {c : Call L} (h : c.field ≠ f) (calls : List (Call L)) :
    callsTo f (c :: calls) = callsTo f calls := by
  simp [callsTo, h]

/-- Calls to other fields only are no calls to the field. -/
theorem callsTo_eq_nil {f : L.Field} {calls : List (Call L)} (h : ∀ c ∈ calls, c.field ≠ f) :
    callsTo f calls = [] := by
  induction calls with
  | nil => rfl
  | cons c rest ih =>
      rw [callsTo_cons_of_ne (h c List.mem_cons_self)]
      exact ih fun d hd => h d (List.mem_cons_of_mem _ hd)

/-- A field without any call stays as it is. -/
theorem slot_attempts_of_not_called {b : Builder L} (hb : b.mode = .tolerant) {f : L.Field}
    {calls : List (Call L)} (h : ∀ c ∈ calls, c.field ≠ f) :
    (b.attempts calls).slot f = b.slot f := by
  rw [slot_attempts hb, callsTo_eq_nil h]
  rfl

/-- A tolerant builder refuses no call. -/
theorem run_tolerant {b : Builder L} (hb : b.mode = .tolerant) (calls : List (Call L)) :
    b.run calls = .ok (b.attempts calls) := by
  induction calls generalizing b with
  | nil => rfl
  | cons c rest ih =>
      have hattempt : b.attempt c = b.applied c := by rw [attempt, call_tolerant hb]
      rw [run, List.foldlM_cons, call_tolerant hb, attempts, List.foldl_cons, hattempt]
      exact ih hb

/-- Runs that agree on every field lead to the same builder. -/
theorem attempts_congr {b : Builder L} (hb : b.mode = .tolerant) {calls calls' : List (Call L)}
    (h : ∀ f, (L.shape f).Agree (callsTo f calls) (callsTo f calls')) :
    b.attempts calls = b.attempts calls' := by
  have hslot : (b.attempts calls).slot = (b.attempts calls').slot := by
    funext f
    rw [slot_attempts hb, slot_attempts hb, Shape.after_congr (h f)]
  have hmode : (b.attempts calls).mode = (b.attempts calls').mode := by
    rw [mode_attempts, mode_attempts]
  cases hcalls : b.attempts calls
  cases hcalls' : b.attempts calls'
  rw [hcalls, hcalls'] at hslot hmode
  congr

end Builder

/-- Two runs of setter calls on the same tolerant builder, of any type and made in any way, whose
calls agree on every field: the last call to a field with at most one value; the last call about the
whole and the calls about elements of a list; the last call about the whole, the order of first puts
and the last put of each key of a map. Both runs are accepted, both builds finish, and they give the
same entity with the same faults in the same order. Calls to different fields, and calls about a
whole and about its members, can so be mixed in any way. -/
theorem order_independence {L : Layout} {b : Builder L} (hb : b.mode = .tolerant)
    (calls calls' : List (Builder.Call L)) :
    ((∀ f, (L.shape f).Agree (Builder.callsTo f calls) (Builder.callsTo f calls')) →
      ∃ r, (b.run calls >>= Builder.build) = .ok r ∧ (b.run calls' >>= Builder.build) = .ok r) ∧
    ((∀ f, (L.shape f).Interleaved (Builder.callsTo f calls) (Builder.callsTo f calls')) →
      ∃ r, (b.run calls >>= Builder.build) = .ok r ∧ (b.run calls' >>= Builder.build) = .ok r) := by
  have hagree : (∀ f, (L.shape f).Agree (Builder.callsTo f calls) (Builder.callsTo f calls')) →
      ∃ r, (b.run calls >>= Builder.build) = .ok r ∧
        (b.run calls' >>= Builder.build) = .ok r := by
    intro h
    have hmode : (b.attempts calls).mode = .tolerant := (Builder.mode_attempts b calls).trans hb
    have hbuild := Builder.build_tolerant hmode
    refine ⟨(b.attempts calls).settled.toRecord, ?_, ?_⟩
    · rw [Builder.run_tolerant hb]
      exact hbuild
    · rw [Builder.run_tolerant hb, ← Builder.attempts_congr hb h]
      exact hbuild
  exact ⟨hagree, fun h => hagree fun f => (h f).agree⟩

/-- Calls to a workflow with second thoughts: the name and a node are given twice, and the list of
connections is given after one of its elements. -/
def revisedCalls : List (Builder.Call Workflow.layout) :=
  [⟨.name, .set "Draft"⟩,
    ⟨.nodes, .supplyOne "a" (.error (.text "unreadable")) (Entity.placeholder Node)⟩,
    ⟨.nodes, .put "b" (Entity.placeholder Node)⟩,
    ⟨.connections, .add (Entity.placeholder Connection)⟩,
    ⟨.nodes, .put "a" (Entity.placeholder Node)⟩, ⟨.name, .set "Final"⟩,
    ⟨.connections, .setAll []⟩]

/-- The calls that count among them, in another order. -/
def straightCalls : List (Builder.Call Workflow.layout) :=
  [⟨.connections, .setAll []⟩, ⟨.nodes, .put "a" (Entity.placeholder Node)⟩, ⟨.name, .set "Final"⟩,
    ⟨.connections, .add (Entity.placeholder Connection)⟩,
    ⟨.nodes, .put "b" (Entity.placeholder Node)⟩]

/-- Second thoughts leave no trace. The workflow has the name that was given last, both nodes in the
order in which they came up, and the one connection that was added. -/
theorem order_independence_revisedCalls :
    ∃ r, ((Builder.new Workflow.layout .tolerant).run revisedCalls >>= Builder.build) = .ok r ∧
      ((Builder.new Workflow.layout .tolerant).run straightCalls >>= Builder.build) = .ok r ∧
      r.get .name = some "Final" ∧ Assoc.keys (r.get .nodes) = ["a", "b"] ∧
      (r.get .connections).length = 1 := by
  have hagree : ∀ f, (Workflow.layout.shape f).Agree (Builder.callsTo f revisedCalls)
      (Builder.callsTo f straightCalls) := by
    intro f
    cases f with
    | name => rfl
    | nodes =>
        have hrevised : Builder.callsTo Workflow.Field.nodes revisedCalls =
            [.supplyOne "a" (.error (.text "unreadable")) (Entity.placeholder Node),
              .put "b" (Entity.placeholder Node), .put "a" (Entity.placeholder Node)] := rfl
        have hstraight : Builder.callsTo Workflow.Field.nodes straightCalls =
            [.put "a" (Entity.placeholder Node), .put "b" (Entity.placeholder Node)] := rfl
        rw [hrevised, hstraight]
        refine ⟨rfl, by decide, fun k => ?_⟩
        by_cases ha : "a" = k
        · subst ha
          simp [MapCall.putKey?]
        · by_cases hb : "b" = k <;> simp [MapCall.putKey?, ha, hb]
    | connections => exact ⟨rfl, rfl⟩
    | annotations => exact ⟨rfl, rfl⟩
  have htolerant : (Builder.new Workflow.layout .tolerant).mode = .tolerant := rfl
  obtain ⟨r, hrevised, hstraight⟩ :=
    (order_independence htolerant revisedCalls straightCalls).1 hagree
  have hresult : r.get .name = some "Final" ∧ Assoc.keys (r.get .nodes) = ["a", "b"] ∧
      (r.get .connections).length = 1 := by
    obtain rfl := Except.ok.inj hrevised
    exact ⟨rfl, rfl, rfl⟩
  exact ⟨r, hrevised, hstraight, hresult⟩

end Flowsheet
