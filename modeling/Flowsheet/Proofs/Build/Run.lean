import Flowsheet.Build.Builder

/-!
# What setter calls and builds come to

One statement for each step of a builder. A setter call has the effect `Builder.applied`, whatever
the mode, unless its supply failed and the build is strict; then it is refused with the cause
(`call_of_cause?_eq_none`, `call_tolerant`, `call_strict`). A finished build hands over the slots as
they are once every required field without a call is missing (`eq_toRecord_settled_of_build`); a
tolerant build always finishes (`build_tolerant`), a strict one unless such a field is there
(`build_of_not_isMissing`, `build_strict_of_isMissing`).

Reading a mapping and finishing a build both go through the fields once and change each field's own
slot. `foldlM_updateField` and `foldlM_updateField_error` say what such a pass comes to; which of
them applies is a matter of the first field at which something fails (`exists_first`).
-/

namespace Flowsheet

/-- Either no item is of a kind or there is a first one. -/
theorem exists_first {ι : Type} (p : ι → Bool) (items : List ι) :
    (∀ x ∈ items, p x = false) ∨
      ∃ pre x post, items = pre ++ x :: post ∧ (∀ y ∈ pre, p y = false) ∧ p x = true := by
  cases hfind : items.find? p with
  | none =>
      left
      intro x hx
      simpa using List.find?_eq_none.mp hfind x hx
  | some x =>
      obtain ⟨hx, pre, post, hitems, hpre⟩ := List.find?_eq_some_iff_append.mp hfind
      refine Or.inr ⟨pre, x, post, hitems, ?_, hx⟩
      intro y hy
      simpa using hpre y hy

/-- A result that is made from another one exists only if that one does. -/
theorem exists_of_map_eq_ok {ε α β : Type} {x : Except ε α} {f : α → β} {b : β}
    (h : x.map f = .ok b) : ∃ a, x = .ok a ∧ f a = b := by
  cases x with
  | error e => cases h
  | ok a => exact ⟨a, rfl, Except.ok.inj h⟩

/-- A step that succeeds has a first half that succeeds. -/
theorem exists_of_bind_eq_ok {ε α β : Type} {x : Except ε α} {f : α → Except ε β} {b : β}
    (h : x >>= f = .ok b) : ∃ a, x = .ok a ∧ f a = .ok b := by
  cases x with
  | error e => cases h
  | ok a => exact ⟨a, rfl, h⟩

/-! ### Setter calls -/

/-- The cause with which the supply of a call failed. -/
def SlotCall.cause? {γ α : Type} : SlotCall γ α → Option Cause
  | .supply (.error cause) _ => some cause
  | .supply (.ok _) _ | .set _ => none

/-- The cause with which the supply of a call failed. -/
def ListCall.cause? {α : Type} : ListCall α → Option Cause
  | .supplyAll (.error cause) _ | .supplyOne (.error cause) _ => some cause
  | .supplyAll (.ok _) _ | .supplyOne (.ok _) _ | .setAll _ | .add _ => none

/-- The cause with which the supply of a call failed. -/
def MapCall.cause? {α : Type} : MapCall α → Option Cause
  | .supplyAll (.error cause) _ | .supplyOne _ (.error cause) _ => some cause
  | .supplyAll (.ok _) _ | .supplyOne _ (.ok _) _ | .setAll _ | .put _ _ => none

namespace Shape

/-- The cause with which the supply of a call failed. -/
def cause? : (s : Shape) → s.Call → Option Cause
  | required _, c | optional _, c | @requiredPart _ _, c | @optionalPart _ _, c => SlotCall.cause? c
  | list _, c | @parts _ _, c => ListCall.cause? c
  | @namedParts _ _, c => MapCall.cause? c

/-- What a call makes of a slot in a tolerant build. -/
def applied (s : Shape) (c : s.Call) (slot : s.Slot) : s.Slot :=
  match apply ⟨"", .tolerant⟩ .prior s c slot with
  | .ok next => next
  | .error _ => slot

/-- Tolerant builds refuse no call. -/
theorem apply_tolerant (entity : String) (key : FaultKey) (s : Shape) (c : s.Call) (slot : s.Slot) :
    apply ⟨entity, .tolerant⟩ key s c slot = .ok (s.applied c slot) := by
  cases s with
  | required _ | optional _ | requiredPart _ | optionalPart _ =>
      rcases c with v | ⟨e | v, fallback⟩ <;> rfl
  | list _ | parts _ => rcases c with vs | ⟨e | vs, fallback⟩ | v | ⟨e | v, fallback⟩ <;> rfl
  | namedParts _ => rcases c with es | ⟨e | es, fallback⟩ | ⟨k, v⟩ | ⟨k, e | v, fallback⟩ <;> rfl

/-- In a strict build a call with a failed supply is refused, any other has its tolerant effect. -/
theorem apply_strict (entity : String) (key : FaultKey) (s : Shape) (c : s.Call) (slot : s.Slot) :
    apply ⟨entity, .strict⟩ key s c slot =
      match s.cause? c with
      | some cause => .error (.strict entity key cause)
      | none => .ok (s.applied c slot) := by
  cases s with
  | required _ | optional _ | requiredPart _ | optionalPart _ =>
      rcases c with v | ⟨e | v, fallback⟩ <;> rfl
  | list _ | parts _ => rcases c with vs | ⟨e | vs, fallback⟩ | v | ⟨e | v, fallback⟩ <;> rfl
  | namedParts _ => rcases c with es | ⟨e | es, fallback⟩ | ⟨k, v⟩ | ⟨k, e | v, fallback⟩ <;> rfl

/-- A call without a failed supply does the same in both modes. -/
theorem apply_of_cause?_eq_none (scope : Scope) (key : FaultKey) {s : Shape} {c : s.Call}
    (slot : s.Slot) (h : s.cause? c = none) :
    apply scope key s c slot = .ok (s.applied c slot) := by
  obtain ⟨entity, _ | _⟩ := scope
  · exact apply_tolerant entity key s c slot
  · rw [apply_strict, h]

/-! ### Required fields -/

/-- Whether the field is required and had no call. -/
def isMissing : (s : Shape) → s.Slot → Bool
  | required _, slot | @requiredPart _ _, slot => slot.state == .unset
  | optional _, _ | @optionalPart _ _, _ | list _, _ | @parts _ _, _ | @namedParts _ _, _ => false

/-- The slot at the end of a tolerant build. -/
def settled (key : FaultKey) : (s : Shape) → s.Slot → s.Slot
  | required _, slot | @requiredPart _ _, slot =>
    if slot.state == .unset then .fallenBack none (Fault.missing key.text) else slot
  | optional _, slot | @optionalPart _ _, slot => slot
  | list _, slot | @parts _ _, slot => slot
  | @namedParts _ _, slot => slot

/-- An untouched field is missing just if it is required. -/
theorem isMissing_unset (s : Shape) : s.isMissing s.unset = s.isRequired := by
  cases s <;> rfl

/-- A field that had a call is not missing, whatever the call supplied. -/
theorem isMissing_applied (s : Shape) (c : s.Call) (slot : s.Slot) :
    s.isMissing (s.applied c slot) = false := by
  cases s with
  | required _ => rcases c with v | ⟨e | v, fallback⟩ <;> rfl
  | requiredPart _ => rcases c with v | ⟨e | v, _ | fallback⟩ <;> rfl
  | optional _ | optionalPart _ | list _ | parts _ | namedParts _ => rfl

/-- The end of a build does not touch a field that is not missing. -/
theorem settled_of_not_isMissing (key : FaultKey) {s : Shape} {slot : s.Slot}
    (h : s.isMissing slot = false) : s.settled key slot = slot := by
  cases s with
  | required _ | requiredPart _ => exact if_neg (by simpa [isMissing] using h)
  | optional _ | optionalPart _ | list _ | parts _ | namedParts _ => rfl

/-- A tolerant build settles a required field. -/
theorem require_tolerant (entity : String) (key : FaultKey) (s : Shape) (slot : s.Slot) :
    require ⟨entity, .tolerant⟩ key s slot = .ok (s.settled key slot) := by
  cases s with
  | required _ | requiredPart _ => obtain ⟨v, t, _ | _ | _⟩ := slot <;> rfl
  | optional _ | optionalPart _ | list _ | parts _ | namedParts _ => rfl

/-- A strict build ends at a required field that is missing. -/
theorem require_strict (entity : String) (key : FaultKey) (s : Shape) (slot : s.Slot) :
    require ⟨entity, .strict⟩ key s slot =
      if s.isMissing slot then .error (.strict entity key (.field (.missing key.text)))
      else .ok slot := by
  cases s with
  | required _ | requiredPart _ => obtain ⟨v, t, _ | _ | _⟩ := slot <;> rfl
  | optional _ | optionalPart _ | list _ | parts _ | namedParts _ => rfl

/-- In either mode, nothing happens to a field that is not missing. -/
theorem require_of_not_isMissing (scope : Scope) (key : FaultKey) {s : Shape} {slot : s.Slot}
    (h : s.isMissing slot = false) : require scope key s slot = .ok slot := by
  obtain ⟨entity, _ | _⟩ := scope
  · rw [require_tolerant, settled_of_not_isMissing key h]
  · rw [require_strict, h]
    rfl

end Shape

namespace Builder

variable {L : Layout}

/-! ### Slots that are set again -/

/-- A slot that is written back leaves the builder as it was. -/
theorem setSlot_self (b : Builder L) (f : L.Field) : b.setSlot f (b.slot f) = b := by
  unfold setSlot
  congr 1
  funext g
  split
  · rename_i h
    subst h
    rfl
  · rfl

/-- Of two writes to one slot in a row, the second counts. -/
theorem setSlot_setSlot (b : Builder L) (f : L.Field) (s s' : (L.shape f).Slot) :
    (b.setSlot f s).setSlot f s' = b.setSlot f s' := by
  unfold setSlot
  congr 1
  funext g
  by_cases h : g = f
  · simp only [dif_pos h]
  · simp only [dif_neg h]

/-! ### Calls of a builder -/

/-- The cause with which the supply of a call failed. -/
def Call.cause? (c : Call L) : Option Cause := (L.shape c.field).cause? c.setter

/-- The builder after a call that is not refused. -/
def applied (b : Builder L) (c : Call L) : Builder L :=
  b.setSlot c.field ((L.shape c.field).applied c.setter (b.slot c.field))

/-- In either mode, a call whose supply did not fail is accepted. -/
theorem call_of_cause?_eq_none (b : Builder L) {c : Call L} (h : c.cause? = none) :
    b.call c = .ok (b.applied c) := by
  unfold call
  rw [Shape.apply_of_cause?_eq_none _ _ _ h]
  rfl

/-- A tolerant builder accepts every call. -/
theorem call_tolerant {b : Builder L} (hb : b.mode = .tolerant) (c : Call L) :
    b.call c = .ok (b.applied c) := by
  unfold call scope
  rw [hb, Shape.apply_tolerant]
  rfl

/-- A strict builder refuses a call whose supply failed, in the name of its entity and for its
field. -/
theorem call_strict {b : Builder L} (hb : b.mode = .strict) {c : Call L} {cause : Cause}
    (h : c.cause? = some cause) :
    b.call c = .error (.strict L.entity (L.key c.field) cause) := by
  have hcause : (L.shape c.field).cause? c.setter = some cause := h
  unfold call scope
  rw [hb, Shape.apply_strict, hcause]
  rfl

/-- An attempt either has the full effect of its call or none. -/
theorem attempt_eq_or (b : Builder L) (c : Call L) :
    b.attempt c = b ∨ b.attempt c = b.applied c := by
  cases hb : b.mode with
  | tolerant => exact Or.inr (by rw [attempt, call_tolerant hb])
  | strict =>
      cases hc : c.cause? with
      | none => exact Or.inr (by rw [attempt, call_of_cause?_eq_none _ hc])
      | some cause => exact Or.inl (by rw [attempt, call_strict hb hc])

/-- An attempt that cannot be refused is the call. -/
theorem attempt_of_cause?_eq_none (b : Builder L) {c : Call L} (h : c.cause? = none) :
    b.attempt c = b.applied c := by
  rw [attempt, call_of_cause?_eq_none b h]

/-! ### Runs of calls -/

/-- What every call keeps of the slot of its field, any sequence of attempts keeps of all slots. -/
theorem attempts_induction {P : (f : L.Field) → (L.shape f).Slot → Prop} {calls : List (Call L)}
    (hcalls : ∀ c ∈ calls, ∀ slot, P c.field slot →
      P c.field ((L.shape c.field).applied c.setter slot))
    {b : Builder L} (h : ∀ f, P f (b.slot f)) : ∀ f, P f ((b.attempts calls).slot f) := by
  induction calls generalizing b with
  | nil => exact h
  | cons c rest ih =>
      refine ih (fun d hd => hcalls d (List.mem_cons_of_mem _ hd)) (b := b.attempt c) fun f => ?_
      rcases b.attempt_eq_or c with heq | heq
      · rw [heq]
        exact h f
      · rw [heq]
        by_cases hf : f = c.field
        · subst hf
          rw [applied, slot_setSlot]
          exact hcalls c List.mem_cons_self _ (h c.field)
        · rw [applied, slot_setSlot_of_ne _ _ hf]
          exact h f

/-- Calls do not change the mode. -/
theorem mode_attempts (b : Builder L) (calls : List (Call L)) :
    (b.attempts calls).mode = b.mode := by
  induction calls generalizing b with
  | nil => rfl
  | cons c rest ih =>
      have hmode : (b.attempt c).mode = b.mode := by
        rcases b.attempt_eq_or c with heq | heq <;> rw [heq]
        rfl
      exact (ih (b.attempt c)).trans hmode

/-- A run that is not refused makes all its calls. -/
theorem attempts_of_run {b next : Builder L} {calls : List (Call L)}
    (h : b.run calls = .ok next) : b.attempts calls = next := by
  induction calls generalizing b with
  | nil => exact Except.ok.inj h
  | cons c rest ih =>
      rw [run, List.foldlM_cons] at h
      obtain ⟨mid, hcall, hrest⟩ := exists_of_bind_eq_ok h
      have hattempt : b.attempt c = mid := by rw [attempt, hcall]
      rw [attempts, List.foldl_cons, hattempt]
      exact ih hrest

/-- A run in which no supply fails is not refused, whatever the mode. -/
theorem run_of_cause?_eq_none {calls : List (Call L)} (h : ∀ c ∈ calls, c.cause? = none)
    (b : Builder L) : b.run calls = .ok (b.attempts calls) := by
  induction calls generalizing b with
  | nil => rfl
  | cons c rest ih =>
      have hc := h c List.mem_cons_self
      have hrest := ih (fun d hd => h d (List.mem_cons_of_mem _ hd)) (b.applied c)
      rw [run, List.foldlM_cons, call_of_cause?_eq_none b hc, attempts, List.foldl_cons,
        attempt_of_cause?_eq_none b hc]
      exact hrest

/-- After a run in which no supply fails just those required fields are missing that were missing
before and had no call. -/
theorem isMissing_attempts {calls : List (Call L)} (h : ∀ c ∈ calls, c.cause? = none)
    (b : Builder L) (f : L.Field) :
    (L.shape f).isMissing ((b.attempts calls).slot f) =
      ((L.shape f).isMissing (b.slot f) && calls.all fun c => c.field ≠ f) := by
  induction calls generalizing b with
  | nil => exact (Bool.and_true _).symm
  | cons c rest ih =>
      have hrest := ih (fun d hd => h d (List.mem_cons_of_mem _ hd)) (b.applied c)
      rw [attempts, List.foldl_cons, attempt_of_cause?_eq_none b (h c List.mem_cons_self)]
      refine hrest.trans ?_
      by_cases hf : f = c.field
      · subst hf
        have hset : (L.shape c.field).isMissing ((b.applied c).slot c.field) = false := by
          rw [applied, slot_setSlot]
          exact Shape.isMissing_applied _ _ _
        simp [hset]
      · rw [applied, slot_setSlot_of_ne _ _ hf]
        simp [Ne.symm hf]

/-- While no supply fails the mode does not matter. -/
theorem slot_attempts_congr {calls : List (Call L)} (h : ∀ c ∈ calls, c.cause? = none)
    {b b' : Builder L} (hslot : b.slot = b'.slot) :
    (b.attempts calls).slot = (b'.attempts calls).slot := by
  induction calls generalizing b b' with
  | nil => exact hslot
  | cons c rest ih =>
      have hc := h c List.mem_cons_self
      have hstep : (b.attempt c).slot = (b'.attempt c).slot := by
        rw [attempt_of_cause?_eq_none b hc, attempt_of_cause?_eq_none b' hc, applied, applied,
          setSlot, setSlot, hslot]
      exact ih (fun d hd => h d (List.mem_cons_of_mem _ hd)) hstep

/-! ### One pass over the fields -/

/-- Changes the slot of one field. -/
def updateField (g : Scope → (f : L.Field) → (L.shape f).Slot → Except BuildError (L.shape f).Slot)
    (b : Builder L) (f : L.Field) : Except BuildError (Builder L) :=
  (g b.scope f (b.slot f)).map (b.setSlot f)

section

variable {g : Scope → (f : L.Field) → (L.shape f).Slot → Except BuildError (L.shape f).Slot}

/-- One field is changed and written back. -/
theorem updateField_of_ok {b : Builder L} {f : L.Field} {s : (L.shape f).Slot}
    (h : g b.scope f (b.slot f) = .ok s) : updateField g b f = .ok (b.setSlot f s) := by
  unfold updateField
  rw [h]
  rfl

/-- An error at one field is the error of the step. -/
theorem updateField_of_error {b : Builder L} {f : L.Field} {e : BuildError}
    (h : g b.scope f (b.slot f) = .error e) : updateField g b f = .error e := by
  unfold updateField
  rw [h]
  rfl

/-- A pass in which every field's change succeeds: each field is changed once, from its own slot. -/
theorem foldlM_updateField {fs : List L.Field} (hfs : fs.Nodup) {b : Builder L}
    {new : (f : L.Field) → (L.shape f).Slot}
    (h : ∀ f ∈ fs, g b.scope f (b.slot f) = .ok (new f)) :
    fs.foldlM (updateField g) b = .ok ⟨b.mode, fun f => if f ∈ fs then new f else b.slot f⟩ := by
  induction fs generalizing b with
  | nil => simp only [List.foldlM_nil, List.not_mem_nil, if_false]; rfl
  | cons f rest ih =>
      rw [List.nodup_cons] at hfs
      have hrest : ∀ f' ∈ rest,
          g (b.setSlot f (new f)).scope f' ((b.setSlot f (new f)).slot f') = .ok (new f') := by
        intro f' hf'
        have hne : f' ≠ f := fun heq => hfs.1 (heq ▸ hf')
        rw [slot_setSlot_of_ne b _ hne]
        exact h f' (List.mem_cons_of_mem _ hf')
      rw [List.foldlM_cons, updateField_of_ok (h f List.mem_cons_self)]
      refine (ih hfs.2 hrest).trans ?_
      congr 2
      funext f'
      by_cases hf' : f' = f
      · subst hf'
        simp [hfs.1]
      · simp [hf', slot_setSlot_of_ne b (new f) hf']

/-- A pass ends at the first field whose change fails. -/
theorem foldlM_updateField_error {pre post : List L.Field} {f : L.Field}
    (hfs : (pre ++ f :: post).Nodup) {b : Builder L} (new : (f : L.Field) → (L.shape f).Slot)
    (hpre : ∀ f' ∈ pre, g b.scope f' (b.slot f') = .ok (new f')) {e : BuildError}
    (hf : g b.scope f (b.slot f) = .error e) :
    (pre ++ f :: post).foldlM (updateField g) b = .error e := by
  rw [List.nodup_append] at hfs
  have hnot : f ∉ pre := fun hmem => hfs.2.2 f hmem f List.mem_cons_self rfl
  have hstep : updateField g
      ⟨b.mode, fun f' => if f' ∈ pre then new f' else b.slot f'⟩ f = .error e := by
    apply updateField_of_error
    show g b.scope f (if f ∈ pre then new f else b.slot f) = .error e
    rw [if_neg hnot, hf]
  rw [List.foldlM_append, foldlM_updateField hfs.1 hpre]
  show ((f :: post).foldlM (updateField g) _) = _
  rw [List.foldlM_cons, hstep]
  rfl

/-- A successful pass over all fields. -/
theorem foldlM_updateField_fields {b : Builder L} (new : (f : L.Field) → (L.shape f).Slot)
    (h : ∀ f, g b.scope f (b.slot f) = .ok (new f)) :
    L.fields.foldlM (updateField g) b = .ok ⟨b.mode, new⟩ := by
  rw [foldlM_updateField L.nodup_fields fun f _ => h f]
  congr 2
  funext f
  exact if_pos (L.mem_fields f)

end

/-! ### Builds -/

/-- The builder at the end of a tolerant build. -/
def settled (b : Builder L) : Builder L :=
  ⟨b.mode, fun f => (L.shape f).settled (L.key f) (b.slot f)⟩

/-- The end of a build changes nothing where nothing is missing. -/
theorem settled_eq_self {b : Builder L} (h : ∀ f, (L.shape f).isMissing (b.slot f) = false) :
    b.settled = b := by
  unfold settled
  congr 1
  funext f
  exact Shape.settled_of_not_isMissing _ (h f)

/-- Builders that hold the same slots hand over the same entity. -/
theorem toRecord_settled_congr {b b' : Builder L} (h : b.slot = b'.slot) :
    b.settled.toRecord = b'.settled.toRecord := by
  unfold settled toRecord
  rw [h]

/-- A build is one pass over the fields, after which the builder is taken as it is. -/
theorem build_eq (b : Builder L) :
    b.build = (L.fields.foldlM
      (updateField fun scope f slot => (L.shape f).require scope (L.key f) slot) b).map toRecord :=
  rfl

/-- A tolerant build always finishes. -/
theorem build_tolerant {b : Builder L} (hb : b.mode = .tolerant) :
    b.build = .ok b.settled.toRecord := by
  rw [build_eq, foldlM_updateField_fields
    (fun f => (L.shape f).settled (L.key f) (b.slot f)) fun f => ?_]
  · rfl
  · unfold scope
    rw [hb]
    exact Shape.require_tolerant _ _ _ _

/-- A strict build finishes if no required field is missing. -/
theorem build_of_not_isMissing {b : Builder L} (h : ∀ f, (L.shape f).isMissing (b.slot f) = false) :
    b.build = .ok b.settled.toRecord := by
  rw [build_eq, foldlM_updateField_fields
    (fun f => (L.shape f).settled (L.key f) (b.slot f)) fun f => ?_]
  · rfl
  · rw [Shape.settled_of_not_isMissing _ (h f)]
    exact Shape.require_of_not_isMissing _ _ (h f)

/-- A strict build ends at the first required field that is missing. -/
theorem build_strict_of_isMissing {b : Builder L} (hb : b.mode = .strict) {pre post : List L.Field}
    {f : L.Field} (hfields : L.fields = pre ++ f :: post)
    (hpre : ∀ f' ∈ pre, (L.shape f').isMissing (b.slot f') = false)
    (hf : (L.shape f).isMissing (b.slot f) = true) :
    b.build = .error (.strict L.entity (L.key f) (.field (.missing (L.key f).text))) := by
  rw [build_eq, hfields, foldlM_updateField_error (hfields ▸ L.nodup_fields)
    b.slot (fun f' hf' => Shape.require_of_not_isMissing _ _ (hpre f' hf'))]
  · rfl
  · unfold scope
    rw [hb, Shape.require_strict, if_pos hf]

/-- What any finished build hands over. -/
theorem eq_toRecord_settled_of_build {b : Builder L} {r : Record L} (h : b.build = .ok r) :
    r = b.settled.toRecord := by
  cases hb : b.mode with
  | tolerant =>
      rw [build_tolerant hb] at h
      exact (Except.ok.inj h).symm
  | strict =>
      rcases exists_first (fun f => (L.shape f).isMissing (b.slot f)) L.fields with
        hnone | ⟨pre, f, post, hfields, hpre, hf⟩
      · rw [build_of_not_isMissing fun f => hnone f (L.mem_fields f)] at h
        exact (Except.ok.inj h).symm
      · rw [build_strict_of_isMissing hb hfields hpre hf] at h
        cases h

end Builder

end Flowsheet
