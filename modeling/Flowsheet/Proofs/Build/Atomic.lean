import Flowsheet.Build.InPlace
import Flowsheet.Model.Node
import Flowsheet.Proofs.Build.Run

/-!
# Refused calls leave nothing behind

On a workbench a call could fail half way and leave what it had written. None does: each supply asks
what its failure comes to before it writes anything, and all that it does afterwards comes through
(`atomic_ofExcept_bind`). So a call that is refused leaves the workbench as it was, and calls that
follow it, and the build, come to what they would come to without it
(`refused_calls_leave_no_trace`).

Calls on a workbench are the calls of a `Builder`: it stores what the builder's slots hold
(`Builder.workbench`), a call that comes through leads to the next builder (`perform_workbench`),
and the finished record is the same (`build_workbench`).
-/

namespace Flowsheet

/-! ### Updates that fail first or not at all -/

namespace Update

variable {σ α : Type}

/-- An update that comes through, whatever the storage is like. -/
def NeverFails (u : Update σ Unit) : Prop := ∀ s, u.error? s = none

/-- An update that leaves the storage as it is if it does not come through. -/
def Atomic (u : Update σ Unit) : Prop := ∀ s e, u.error? s = some e → u.after s = s

/-- A single write succeeds. -/
theorem neverFails_modify (f : σ → σ) : NeverFails (modify f) := fun _ => rfl

/-- Steps that succeed, one after another, succeed. -/
theorem NeverFails.bind {u : Update σ Unit} {v : Unit → Update σ Unit} (hu : NeverFails u)
    (hv : ∀ x, NeverFails (v x)) : NeverFails (u >>= v) := by
  intro s
  have hfirst := hu s
  unfold error? at hfirst ⊢
  rw [EStateM.run_bind]
  cases hrun : u.run s with
  | ok x next => exact hv x next
  | error e next =>
      rw [hrun] at hfirst
      cases hfirst

/-- Two writes in a row succeed. -/
theorem neverFails_modify_modify (f g : σ → σ) : NeverFails (do modify f; modify g) :=
  (neverFails_modify f).bind fun _ => neverFails_modify g

/-- What never fails has no failure after which a write could be left. -/
theorem NeverFails.atomic {u : Update σ Unit} (h : NeverFails u) : Atomic u := by
  intro s e herror
  rw [h s] at herror
  cases herror

/-- What fails can only be the step that comes before everything else. -/
theorem atomic_ofExcept_bind (x : Except BuildError α) {k : α → Update σ Unit}
    (hk : ∀ a, NeverFails (k a)) : Atomic (ofExcept x >>= k) := by
  cases x with
  | error e => exact fun _ _ _ => rfl
  | ok a => exact (hk a).atomic

/-- The outcome of two steps is that of the second after that of the first. -/
theorem outcome_bind (u : Update σ Unit) (v : Unit → Update σ Unit) (s : σ) :
    (u >>= v).outcome s = u.outcome s >>= (v ()).outcome := by
  unfold outcome
  rw [EStateM.run_bind]
  cases u.run s <;> rfl

/-- What the run of an update is that either leads to other storage or is refused. -/
def result (s : σ) : Except BuildError σ → EStateM.Result BuildError σ Unit
  | .ok next => .ok () next
  | .error e => .error e s

end Update

open Update

/-! ### Supplies -/

section

variable {α : Type} (scope : Scope) (key : FaultKey)

namespace Slot.InPlace

/-- A value for an optional field is always accepted. -/
theorem neverFails_assignOptional (value : Option α) : NeverFails (assignOptional value) :=
  (neverFails_modify _).bind fun _ => neverFails_modify_modify _ _

/-- A supply to an optional field is refused before the first write. -/
theorem atomic_supplyOptional (given : Except Cause (Option α)) (fallback : Option α) :
    Atomic (supplyOptional scope key given fallback) := by
  cases given with
  | ok value => exact (neverFails_assignOptional value).atomic
  | error cause =>
      exact atomic_ofExcept_bind _ fun _ =>
        (neverFails_modify _).bind fun _ => neverFails_modify_modify _ _

variable [HasFaults α]

/-- A part for an optional field is always accepted. -/
theorem neverFails_assignOptionalPart (part : Option α) : NeverFails (assignOptionalPart part) :=
  (neverFails_modify _).bind fun _ => neverFails_modify_modify _ _

/-- To fall back for a part, once it has been decided on, always succeeds. -/
theorem neverFails_fallBackPart (fallback : Option α) (fault : Fault) :
    NeverFails (fallBackPart fallback fault) := by
  cases fallback with
  | none => exact neverFails_modify_modify _ _
  | some part => exact neverFails_modify_modify _ _

/-- A supply of an optional part is refused before the first write. -/
theorem atomic_supplyOptionalPart (given : Except Cause (Option α)) (fallback : Option α) :
    Atomic (supplyOptionalPart scope key given fallback) := by
  cases given with
  | ok part => exact (neverFails_assignOptionalPart part).atomic
  | error cause =>
      exact atomic_ofExcept_bind _ fun fault =>
        (neverFails_fallBackPart fallback fault).bind fun _ => neverFails_modify _

end Slot.InPlace

namespace ListStore

/-- New members for the whole field are always accepted. -/
theorem neverFails_assignAll (values : List α) : NeverFails (assignAll values) :=
  neverFails_modify_modify _ _

/-- A supply of all members is refused before the first write. -/
theorem atomic_supplyAll (given : Except Cause (List α)) (fallback : List α) :
    Atomic (supplyAll scope key given fallback) := by
  cases given with
  | ok values => exact (neverFails_assignAll values).atomic
  | error cause =>
      exact atomic_ofExcept_bind _ fun _ => neverFails_modify_modify _ _

/-- A supply of one more plain element is refused before the first write. -/
theorem atomic_supplyElement (given : Except Cause α) (fallback : α) :
    Atomic (supplyElement scope key given fallback) := by
  cases given with
  | ok value => exact (neverFails_modify _).atomic
  | error cause =>
      exact atomic_ofExcept_bind _ fun _ => neverFails_modify_modify _ _

/-- A supply of one more part is refused before the first write. -/
theorem atomic_supplyPart [HasFaults α] (given : Except Cause α) (fallback : α) :
    Atomic (supplyPart scope key given fallback) := by
  cases given with
  | ok part => exact (neverFails_modify _).atomic
  | error cause => exact atomic_ofExcept_bind _ fun _ => neverFails_modify _

end ListStore

namespace MapSlot.InPlace

/-- New entries for the whole map are always accepted. -/
theorem neverFails_assignAll (entries : List (String × α)) : NeverFails (assignAll entries) :=
  neverFails_modify_modify _ _

/-- A supply of all entries is refused before the first write. -/
theorem atomic_supplyAll (given : Except Cause (List (String × α)))
    (fallback : List (String × α)) : Atomic (supplyAll scope key given fallback) := by
  cases given with
  | ok entries => exact (neverFails_assignAll entries).atomic
  | error cause =>
      exact atomic_ofExcept_bind _ fun _ => neverFails_modify_modify _ _

/-- A value under a key is always accepted. -/
theorem neverFails_insert (entry : String) (value : α) : NeverFails (insert entry value) :=
  neverFails_modify_modify _ _

/-- A supply of one plain entry is refused before the first write. -/
theorem atomic_supplyEntry (entry : String) (given : Except Cause α) (fallback : α) :
    Atomic (supplyEntry scope key entry given fallback) := by
  cases given with
  | ok value => exact (neverFails_insert entry value).atomic
  | error cause =>
      exact atomic_ofExcept_bind _ fun _ => neverFails_modify_modify _ _

/-- A supply of one part under a key is refused before the first write. -/
theorem atomic_supplyPart [HasFaults α] (entry : String) (given : Except Cause α) (fallback : α) :
    Atomic (supplyPart scope key entry given fallback) := by
  cases given with
  | ok part => exact (neverFails_insert entry part).atomic
  | error cause => exact atomic_ofExcept_bind _ fun _ => neverFails_insert entry _

end MapSlot.InPlace

end

/-- No supply of any kind of field leaves anything behind when it fails. -/
structure AtomicSupplies (scope : Scope) (key : FaultKey) : Prop where
  /-- A value. -/
  supply : ∀ {α : Type} (given : Except Cause α) fallback,
    Atomic (Slot.InPlace.supply scope key given fallback)
  /-- A value that may be absent. -/
  supplyOptional : ∀ {α : Type} (given : Except Cause (Option α)) fallback,
    Atomic (Slot.InPlace.supplyOptional scope key given fallback)
  /-- A part. -/
  supplyPart : ∀ {α : Type} [HasFaults α] (given : Except Cause α) fallback,
    Atomic (Slot.InPlace.supplyPart scope key given fallback)
  /-- A part that may be absent. -/
  supplyOptionalPart : ∀ {α : Type} [HasFaults α] (given : Except Cause (Option α)) fallback,
    Atomic (Slot.InPlace.supplyOptionalPart scope key given fallback)
  /-- A whole list. -/
  supplyList : ∀ {α : Type} (given : Except Cause (List α)) fallback,
    Atomic (ListStore.supplyAll scope key given fallback)
  /-- An element of a list. -/
  supplyElement : ∀ {α : Type} (given : Except Cause α) fallback,
    Atomic (ListStore.supplyElement scope key given fallback)
  /-- A part in a list. -/
  supplyListPart : ∀ {α : Type} [HasFaults α] (given : Except Cause α) fallback,
    Atomic (ListStore.supplyPart scope key given fallback)
  /-- A whole map. -/
  supplyMap : ∀ {α : Type} (given : Except Cause (List (String × α))) fallback,
    Atomic (MapSlot.InPlace.supplyAll scope key given fallback)
  /-- An entry of a map. -/
  supplyEntry : ∀ {α : Type} entry (given : Except Cause α) fallback,
    Atomic (MapSlot.InPlace.supplyEntry scope key entry given fallback)
  /-- A part in a map. -/
  supplyMapPart : ∀ {α : Type} [HasFaults α] entry (given : Except Cause α) fallback,
    Atomic (MapSlot.InPlace.supplyPart scope key entry given fallback)

/-- All supplies, to fields of all shapes, are refused before the first write. -/
theorem atomicSupplies (scope : Scope) (key : FaultKey) : AtomicSupplies scope key where
  supply given := Slot.InPlace.atomic_supplyOptional scope key (given.map some)
  supplyOptional := Slot.InPlace.atomic_supplyOptional scope key
  supplyPart given := Slot.InPlace.atomic_supplyOptionalPart scope key (given.map some)
  supplyOptionalPart := Slot.InPlace.atomic_supplyOptionalPart scope key
  supplyList := ListStore.atomic_supplyAll scope key
  supplyElement := ListStore.atomic_supplyElement scope key
  supplyListPart := ListStore.atomic_supplyPart scope key
  supplyMap := MapSlot.InPlace.atomic_supplyAll scope key
  supplyEntry := MapSlot.InPlace.atomic_supplyEntry scope key
  supplyMapPart := MapSlot.InPlace.atomic_supplyPart scope key

/-! ### Setter calls -/

/-- Whatever the shape of a field and the setter that is called, a refusal comes before the first
write. -/
theorem Shape.atomic_perform (scope : Scope) (key : FaultKey) (s : Shape) (c : s.Call) :
    Atomic (s.perform scope key c) := by
  have supplies := atomicSupplies scope key
  cases s with
  | required _ =>
      rcases c with v | ⟨given, fallback⟩
      · exact (Slot.InPlace.neverFails_assignOptional _).atomic
      · exact supplies.supply given fallback
  | optional _ =>
      rcases c with v | ⟨given, fallback⟩
      · exact (Slot.InPlace.neverFails_assignOptional _).atomic
      · exact supplies.supplyOptional given fallback
  | requiredPart _ =>
      rcases c with v | ⟨given, fallback⟩
      · exact (Slot.InPlace.neverFails_assignOptionalPart _).atomic
      · exact supplies.supplyPart given fallback
  | optionalPart _ =>
      rcases c with v | ⟨given, fallback⟩
      · exact (Slot.InPlace.neverFails_assignOptionalPart _).atomic
      · exact supplies.supplyOptionalPart given fallback
  | list _ =>
      rcases c with vs | ⟨given, fallback⟩ | v | ⟨given, fallback⟩
      · exact (ListStore.neverFails_assignAll vs).atomic
      · exact supplies.supplyList given fallback
      · exact (neverFails_modify _).atomic
      · exact supplies.supplyElement given fallback
  | parts _ =>
      rcases c with vs | ⟨given, fallback⟩ | v | ⟨given, fallback⟩
      · exact (ListStore.neverFails_assignAll vs).atomic
      · exact supplies.supplyList given fallback
      · exact (neverFails_modify _).atomic
      · exact supplies.supplyListPart given fallback
  | namedParts _ =>
      rcases c with es | ⟨given, fallback⟩ | ⟨entry, v⟩ | ⟨entry, given, fallback⟩
      · exact (MapSlot.InPlace.neverFails_assignAll es).atomic
      · exact supplies.supplyMap given fallback
      · exact (MapSlot.InPlace.neverFails_insert entry v).atomic
      · exact supplies.supplyMapPart entry given fallback

namespace Workbench

variable {L : Layout}

/-- A field that is written back leaves the workbench as it was. -/
theorem setStore_self (b : Workbench L) (f : L.Field) : b.setStore f (b.store f) = b := by
  unfold setStore
  congr 1
  funext g
  split
  · rename_i h
    subst h
    rfl
  · rfl

/-- A step on a field runs on the storage of that field, and nothing else is written. -/
theorem run_onField (b : Workbench L) (f : L.Field) (u : Scope → Update (L.shape f).Store Unit) :
    (onField f u).run b = match (u b.scope).run (b.store f) with
      | .ok _ s => .ok () (b.setStore f s)
      | .error e s => .error e (b.setStore f s) := rfl

/-- A step on a field leaves no trace of a refusal if it leaves none in the field's own storage. -/
theorem atomic_onField (f : L.Field) {u : Scope → Update (L.shape f).Store Unit}
    (hu : ∀ scope, Atomic (u scope)) : Atomic (onField f u) := by
  intro b e herror
  have hstore := hu b.scope (b.store f)
  unfold error? Update.after at hstore
  unfold error? at herror
  unfold Update.after
  rw [run_onField] at herror ⊢
  cases hrun : (u b.scope).run (b.store f) with
  | ok x next =>
      rw [hrun] at herror
      cases herror
  | error e' next =>
      rw [hrun] at hstore
      have hnext : next = b.store f := hstore e' rfl
      rw [hnext]
      exact setStore_self b f

/-- A setter call that fails leaves the workbench as it was. -/
theorem atomic_perform (c : Builder.Call L) : Atomic (perform c) :=
  atomic_onField c.field fun scope =>
    (L.shape c.field).atomic_perform scope (L.key c.field) c.setter

end Workbench

/-! ### Workbenches of builders -/

/-- The faults of single elements by their places among them; `offset` is the place of the first. -/
def ListSlot.places {α : Type} (offset : Nat) : List (α × Option Fault) → List (Nat × FaultTree)
  | [] => []
  | (_, none) :: rest => places (offset + 1) rest
  | (_, some fault) :: rest => (offset, .leaf fault) :: places (offset + 1) rest

/-- What a workbench stores of a list field. -/
def ListSlot.store {α : Type} (slot : ListSlot α) : ListStore α :=
  ⟨slot.bulk, slot.bulkFaults, slot.added.map (·.1), places 0 slot.added⟩

namespace ListSlot

variable {α : Type}

/-- The places of the second elements come after those of the first. -/
theorem places_append (offset : Nat) (added more : List (α × Option Fault)) :
    places offset (added ++ more) =
      places offset added ++ places (offset + added.length) more := by
  induction added generalizing offset with
  | nil => rfl
  | cons element rest ih =>
      have hlength : offset + (element :: rest).length = offset + 1 + rest.length := by
        rw [List.length_cons]
        omega
      obtain ⟨a, _ | fault⟩ := element
      · rw [hlength]
        exact ih (offset + 1)
      · rw [hlength]
        exact congrArg _ (ih (offset + 1))

/-- The faults of added elements are kept by place, as the list of faulty places has them. -/
theorem addedFaults_eq_places (start offset : Nat) (added : List (α × Option Fault)) :
    addedFaults (start + offset) added =
      (places offset added).map fun e => (.index (start + e.1), e.2) := by
  induction added generalizing offset with
  | nil => rfl
  | cons element rest ih =>
      obtain ⟨a, _ | fault⟩ := element
      · exact ih (offset + 1)
      · exact congrArg _ (ih (offset + 1))

/-- One more element in the slot is one more in the storage. -/
theorem store_push (slot : ListSlot α) (value : α) :
    (slot.push value).store = { slot.store with added := slot.store.added ++ [value] } := by
  unfold store push
  rw [places_append, List.map_append]
  exact congrArg (ListStore.mk _ _ _) (List.append_nil _)

/-- A fallback in the slot is one more element in the storage, and one more faulty place. -/
theorem store_fallenBack (slot : ListSlot α) (fallback : α) (fault : Fault) :
    store { slot with added := slot.added ++ [(fallback, some fault)] } =
      { slot.store with
        added := slot.store.added ++ [fallback]
        addedFaults := slot.store.addedFaults ++ [(slot.store.added.length, .leaf fault)] } := by
  unfold store
  rw [places_append, List.map_append, List.length_map, Nat.zero_add]
  rfl

/-- To add an element in place does what it does to the slot. -/
theorem push_store (slot : ListSlot α) (value : α) :
    (ListStore.push value).run slot.store = .ok () (slot.push value).store :=
  congrArg (EStateM.Result.ok ()) (slot.store_push value).symm

/-- To supply a plain element in place does what it does to the slot, or is refused with the same
error. -/
theorem supplyElement_store (scope : Scope) (key : FaultKey) (given : Except Cause α)
    (fallback : α) (slot : ListSlot α) :
    (ListStore.supplyElement scope key given fallback).run slot.store =
      result slot.store ((slot.supplyElement scope key given fallback).map store) := by
  obtain ⟨entity, _ | _⟩ := scope <;> rcases given with cause | value
  · exact congrArg (EStateM.Result.ok ()) (slot.store_fallenBack fallback ⟨cause⟩).symm
  · exact slot.push_store value
  · rfl
  · exact slot.push_store value

/-- To supply a part in place does what it does to the slot, or is refused with the same error. -/
theorem supplyPart_store [HasFaults α] (scope : Scope) (key : FaultKey) (given : Except Cause α)
    (fallback : α) (slot : ListSlot α) :
    (ListStore.supplyPart scope key given fallback).run slot.store =
      result slot.store ((slot.supplyPart scope key given fallback).map store) := by
  obtain ⟨entity, _ | _⟩ := scope <;> rcases given with cause | value
  · exact slot.push_store (HasFaults.mark ⟨cause⟩ fallback)
  · exact slot.push_store value
  · rfl
  · exact slot.push_store value

/-- The tree of the storage is that of the slot. -/
theorem faults_store (slot : ListSlot α) : slot.store.faults = slot.faults := by
  have hplaces := addedFaults_eq_places slot.bulk.length 0 slot.added
  rw [Nat.add_zero] at hplaces
  unfold faults ListStore.faults
  rw [hplaces]
  rfl

end ListSlot

namespace Shape

/-- What a workbench stores of a field. -/
def store : (s : Shape) → s.Slot → s.Store
  | required _, slot | optional _, slot | @requiredPart _ _, slot | @optionalPart _ _, slot => slot
  | list _, slot | @parts _ _, slot => slot.store
  | @namedParts _ _, slot => slot

/-- A call overwrites the storage with what it makes of the slot, or is refused. -/
theorem perform_store (scope : Scope) (key : FaultKey) (s : Shape) (c : s.Call) (slot : s.Slot) :
    (s.perform scope key c).run (s.store slot) =
      result (s.store slot) ((s.apply scope key c slot).map s.store) := by
  cases s with
  | list _ =>
      rcases c with vs | ⟨given, fallback⟩ | v | ⟨given, fallback⟩
      · rfl
      · obtain ⟨entity, _ | _⟩ := scope <;> cases given <;> rfl
      · exact slot.push_store v
      · exact slot.supplyElement_store scope key given fallback
  | parts _ =>
      rcases c with vs | ⟨given, fallback⟩ | v | ⟨given, fallback⟩
      · rfl
      · obtain ⟨entity, _ | _⟩ := scope <;> cases given <;> rfl
      · exact slot.push_store v
      · exact slot.supplyPart_store scope key given fallback
  | required _ | optional _ =>
      obtain ⟨entity, _ | _⟩ := scope <;> rcases c with v | ⟨e | v, fallback⟩ <;> rfl
  | requiredPart _ | optionalPart _ =>
      obtain ⟨entity, _ | _⟩ := scope <;> rcases c with v | ⟨e | v, _ | fallback⟩ <;> rfl
  | namedParts _ =>
      obtain ⟨entity, _ | _⟩ := scope <;>
        rcases c with es | ⟨e | es, fallback⟩ | ⟨k, v⟩ | ⟨k, e | v, fallback⟩ <;> rfl

/-- The demand for a required field does in place what it does to the slot. -/
theorem performRequire_store (scope : Scope) (key : FaultKey) (s : Shape) (slot : s.Slot) :
    (s.performRequire scope key).run (s.store slot) =
      result (s.store slot) ((s.require scope key slot).map s.store) := by
  cases s with
  | required _ | requiredPart _ =>
      obtain ⟨entity, _ | _⟩ := scope <;> obtain ⟨v, t, _ | _ | _⟩ := slot <;> rfl
  | optional _ | optionalPart _ | list _ | parts _ | namedParts _ => rfl

/-- A finished entity takes the same content over from the storage as from the slot. -/
theorem storedContent_store (s : Shape) (slot : s.Slot) :
    s.storedContent (s.store slot) = s.content slot := by
  cases s <;> rfl

/-- A finished entity takes the same tree over from the storage as from the slot. -/
theorem storedFaults_store (s : Shape) (slot : s.Slot) :
    s.storedFaults (s.store slot) = s.faults slot := by
  cases s with
  | list _ => exact slot.faults_store
  | required _ | optional _ | requiredPart _ | optionalPart _ | parts _ | namedParts _ => rfl

/-- An untouched slot is stored as untouched storage. -/
theorem store_unset (s : Shape) : s.store s.unset = s.unsetStore := by
  cases s <;> rfl

end Shape

namespace Builder

variable {L : Layout}

/-- The workbench on which a builder's slots are stored. -/
def workbench (b : Builder L) : Workbench L := ⟨b.mode, fun f => (L.shape f).store (b.slot f)⟩

/-- A new builder lies on a new workbench. -/
theorem workbench_new (L : Layout) (mode : BuildMode) :
    (new L mode).workbench = Workbench.new L mode :=
  congrArg (Workbench.mk mode) (funext fun f => (L.shape f).store_unset)

/-- To set a slot of the builder is to set the storage of its field. -/
theorem workbench_setSlot (b : Builder L) (f : L.Field) (s : (L.shape f).Slot) :
    (b.setSlot f s).workbench = b.workbench.setStore f ((L.shape f).store s) := by
  unfold workbench Workbench.setStore
  congr 1
  funext g
  by_cases h : f = g
  · subst h
    rw [slot_setSlot, dif_pos rfl]
  · rw [slot_setSlot_of_ne b s (Ne.symm h), dif_neg h]

/-- An update of one field that does to the storage what another one does to the slot. -/
theorem onField_workbench (b : Builder L) (f : L.Field)
    {u : Scope → Update (L.shape f).Store Unit} {x : Except BuildError (L.shape f).Slot}
    (hu : (u b.scope).run ((L.shape f).store (b.slot f)) =
      result ((L.shape f).store (b.slot f)) (x.map (L.shape f).store)) :
    (Workbench.onField f u).run b.workbench =
      result b.workbench ((x.map (b.setSlot f)).map workbench) := by
  have hstored : (u b.workbench.scope).run (b.workbench.store f) = _ := hu
  rw [Workbench.run_onField, hstored]
  cases x with
  | ok s => exact congrArg (EStateM.Result.ok ()) (workbench_setSlot b f s).symm
  | error e => exact congrArg (EStateM.Result.error e) (b.workbench.setStore_self f)

/-- A call on a workbench comes to what it comes to in the builder. -/
theorem perform_workbench (b : Builder L) (c : Call L) :
    (Workbench.perform c).run b.workbench = result b.workbench ((b.call c).map workbench) :=
  onField_workbench b c.field (Shape.perform_store _ _ _ _ _)

/-- A call on the workbench leaves what an attempt at it leaves of the builder. -/
theorem after_perform_workbench (b : Builder L) (c : Call L) :
    (Workbench.perform c).after b.workbench = (b.attempt c).workbench := by
  unfold Update.after attempt
  rw [perform_workbench]
  cases b.call c <;> rfl

/-- Calls on a workbench come to what they come to in the builder, with any of them refused. -/
theorem after_workbench (b : Builder L) (calls : List (Call L)) :
    b.workbench.after calls = (b.attempts calls).workbench := by
  induction calls generalizing b with
  | nil => rfl
  | cons c rest ih =>
      rw [Workbench.after, List.foldl_cons, after_perform_workbench]
      exact ih (b.attempt c)

/-- The workbench is finished as the builder is. -/
theorem toRecord_workbench (b : Builder L) : b.workbench.toRecord = b.toRecord := by
  unfold Workbench.toRecord toRecord workbench
  simp only [Shape.storedContent_store, Shape.storedFaults_store]

/-- A demand on the workbench has the outcome of the demand on the builder. -/
theorem outcome_require_workbench (b : Builder L) (f : L.Field) :
    (Workbench.require f).outcome b.workbench = (b.require f).map workbench := by
  have hrun : (Workbench.require f).run b.workbench =
      result b.workbench ((b.require f).map workbench) :=
    onField_workbench b f (Shape.performRequire_store _ _ _ _)
  unfold Update.outcome
  rw [hrun]
  cases b.require f <;> rfl

/-- Required fields are recorded, or end the build, as in the builder. -/
theorem outcome_forM_require_workbench (fs : List L.Field) (b : Builder L) :
    Update.outcome (fs.forM Workbench.require) b.workbench =
      (fs.foldlM require b).map workbench := by
  induction fs generalizing b with
  | nil => rfl
  | cons f rest ih =>
      calc Update.outcome ((f :: rest).forM Workbench.require) b.workbench
          = (Workbench.require f).outcome b.workbench >>=
              Update.outcome (rest.forM Workbench.require) := outcome_bind _ _ _
        _ = (b.require f).map workbench >>= Update.outcome (rest.forM Workbench.require) := by
            rw [outcome_require_workbench]
        _ = (b.require f >>= fun next => rest.foldlM require next).map workbench := by
            cases b.require f with
            | ok next => exact ih next
            | error e => rfl
        _ = ((f :: rest).foldlM require b).map workbench := by rw [List.foldlM_cons]

/-- A build on a workbench is the build of the builder. -/
theorem build_workbench (b : Builder L) : b.workbench.build = b.build := by
  unfold Workbench.build build
  rw [outcome_forM_require_workbench]
  cases L.fields.foldlM require b with
  | ok done => exact congrArg Except.ok (toRecord_workbench done)
  | error e => rfl

end Builder

/-! ### Continuations -/

/-- Calls can be made in two portions. -/
theorem Workbench.after_append {L : Layout} (b : Workbench L) (pre post : List (Builder.Call L)) :
    b.after (pre ++ post) = (b.after pre).after post :=
  List.foldl_append

/-- What calls on a strict workbench, and the build after them, come to is what the builder makes of
them. -/
theorem Workbench.build_after_new {L : Layout} (mode : BuildMode)
    (calls : List (Builder.Call L)) :
    ((Workbench.new L mode).after calls).build = ((Builder.new L mode).attempts calls).build := by
  rw [← Builder.workbench_new, Builder.after_workbench, Builder.build_workbench]

/-- A strict workbench on which calls were made, some of them perhaps refused. A call that is
refused now leaves it as it was. Whatever calls are made afterwards, each of them fails or comes
through as without it, and they lead to the same workbench and the same build, which is the one that
a builder makes of all other calls. Nor does a supply of a single field leave anything behind. -/
theorem refused_calls_leave_no_trace (L : Layout) :
    (∀ (pre : List (Builder.Call L)) (b : Workbench L), b = (Workbench.new L .strict).after pre →
      ∀ c e, (Workbench.perform c).error? b = some e →
        (Workbench.perform c).after b = b ∧
        ∀ post, b.errors (c :: post) = some e :: b.errors post ∧
          b.after (c :: post) = b.after post ∧
          (b.after (c :: post)).build = (b.after post).build ∧
          (b.after (c :: post)).build = ((Builder.new L .strict).attempts (pre ++ post)).build) ∧
    ∀ scope key, scope.mode = .strict → AtomicSupplies scope key := by
  refine ⟨?_, fun scope key _ => atomicSupplies scope key⟩
  intro pre b hb c e herror
  have hsame : (Workbench.perform c).after b = b := Workbench.atomic_perform c b e herror
  refine ⟨hsame, fun post => ?_⟩
  have hafter : b.after (c :: post) = b.after post := by
    rw [Workbench.after, List.foldl_cons, hsame]
    rfl
  refine ⟨?_, hafter, by rw [hafter], ?_⟩
  · rw [Workbench.errors, herror, hsame]
  · rw [hafter, hb, ← Workbench.after_append, Workbench.build_after_new]

/-- Calls to a strict builder of a node, the second of which is refused. -/
def interruptedCalls : List (Builder.Call Node.layout) :=
  [⟨.name, .set "Reader"⟩, ⟨.id, .supply (.error (.text "unreadable")) (some 0)⟩]

/-- A port that could not be read is added after them. -/
theorem refused_calls_leave_no_trace_interrupted :
    let b := (Workbench.new Node.layout .strict).after interruptedCalls
    let c : Builder.Call Node.layout :=
      ⟨.inPorts, .supplyOne (.error (.text "no port")) (Entity.placeholder Port)⟩
    let e := BuildError.strict "NodeDef" (.field "in_ports") (.text "no port")
    (Workbench.perform c).error? b = some e ∧ (Workbench.perform c).after b = b ∧
      ∀ post, b.errors (c :: post) = some e :: b.errors post ∧
        b.after (c :: post) = b.after post ∧ (b.after (c :: post)).build = (b.after post).build ∧
        (b.after (c :: post)).build =
          ((Builder.new Node.layout .strict).attempts (interruptedCalls ++ post)).build :=
  ⟨rfl, (refused_calls_leave_no_trace Node.layout).1 interruptedCalls _ rfl _ _ rfl⟩

end Flowsheet
