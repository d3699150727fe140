import Flowsheet.Proofs.Build.Reachable

/-!
# Strict and tolerant builds in lockstep

The same calls are made to a strict and to a tolerant builder. Up to the first call whose supply
failed, no call is refused and both builders hold the same slots; that call is refused by the strict
builder with the cause. Where no supply failed, the strict build ends at the first required field
without a call, which the tolerant build records as missing, and if there is none both builds give
the same entity (`lockstep`).

In that last case every fault of the entity is one of a part that a call supplied. The invariant is
`Shape.Clean`: the slots have no faults but those of the parts that they hold. Calls without a
failed supply keep it (`Clean.applied`), and `Clean.faults` reads it off the finished field.
-/

namespace Flowsheet

open FaultTree

namespace Shape

/-! ### Fields that no supply failed for -/

/-- The field has no faults but those of the parts that it holds. -/
def Clean : (s : Shape) → s.Slot → Prop
  | required _, slot | optional _, slot => slot.faults = .empty
  | @requiredPart _ _, slot | @optionalPart _ _, slot =>
    slot.faults = (slot.value.map HasFaults.faults).getD .empty
  | list _, slot => slot.bulkFaults = .empty ∧ ∀ e ∈ slot.added, e.2 = none
  | @parts _ _, slot => slot.bulkFaults = .empty
  | @namedParts _ _, slot => slot.bulkFaults = .empty

/-- An untouched field is clean. -/
theorem Clean.unset (s : Shape) : s.Clean s.unset := by
  cases s with
  | required _ | optional _ | requiredPart _ | optionalPart _ | parts _ | namedParts _ => rfl
  | list _ => exact ⟨rfl, fun e he => absurd he List.not_mem_nil⟩

/-- One more element. -/
theorem Clean.push {α : Type} {slot : ListSlot α} (h : (list α).Clean slot) (v : α) :
    (list α).Clean (slot.push v) := by
  refine ⟨h.1, fun e he => ?_⟩
  rcases List.mem_append.mp he with hold | hnew
  · exact h.2 e hold
  · rw [List.mem_singleton.mp hnew]

/-- Calls whose supply did not fail bring no faults but those of parts. -/
theorem Clean.applied {s : Shape} {slot : s.Slot} (h : s.Clean slot) {c : s.Call}
    (hc : s.cause? c = none) : s.Clean (s.applied c slot) := by
  cases s with
  | required _ | optional _ | requiredPart _ | optionalPart _ =>
      rcases c with v | ⟨e | v, fallback⟩
      · rfl
      · cases hc
      · rfl
  | list _ =>
      rcases c with vs | ⟨e | vs, fallback⟩ | v | ⟨e | v, fallback⟩
      · exact ⟨rfl, h.2⟩
      · cases hc
      · exact ⟨rfl, h.2⟩
      · exact h.push v
      · cases hc
      · exact h.push v
  | parts _ =>
      rcases c with vs | ⟨e | vs, fallback⟩ | v | ⟨e | v, fallback⟩
      · rfl
      · cases hc
      · rfl
      · exact h
      · cases hc
      · exact h
  | namedParts _ =>
      rcases c with es | ⟨e | es, fallback⟩ | ⟨k, v⟩ | ⟨k, e | v, fallback⟩
      · rfl
      · cases hc
      · rfl
      · exact h
      · cases hc
      · exact h

/-! ### Where a part stands -/

/-- The entities that stand in a field, each with the steps that lead to it from the field. -/
def placed : (s : Shape) → s.PartView → s.Content → List (FaultPath × AnyEntity)
  | required _, _, _ | optional _, _, _ | list _, _, _ => []
  | @requiredPart _ _, view, c | @optionalPart _ _, view, c => c.toList.map fun a => ([], view a)
  | @parts _ _, view, c => c.zipIdx.map fun e => ([.index e.2], view e.1)
  | @namedParts _ _, view, c => c.map fun e => ([.key e.1], view e.2)

/-- Whatever stands at a place is a member of the field. -/
theorem mem_members_of_mem_placed {s : Shape} {view : s.PartView} {c : s.Content}
    {steps : FaultPath} {x : AnyEntity} (h : (steps, x) ∈ s.placed view c) :
    x ∈ s.members view c := by
  cases s with
  | required _ | optional _ | list _ => cases h
  | requiredPart _ | optionalPart _ =>
      obtain ⟨a, ha, heq⟩ := List.mem_map.mp h
      exact List.mem_map.mpr ⟨a, ha, (Prod.mk.inj heq).2⟩
  | parts _ =>
      obtain ⟨e, he, heq⟩ := List.mem_map.mp h
      exact List.mem_map.mpr ⟨e.1, List.fst_mem_of_mem_zipIdx he, (Prod.mk.inj heq).2⟩
  | namedParts _ =>
      obtain ⟨e, he, heq⟩ := List.mem_map.mp h
      exact List.mem_map.mpr ⟨e, he, (Prod.mk.inj heq).2⟩

/-- A list of plain values of which none fell back has no fault. -/
theorem Clean.faults_list {α : Type} {slot : ListSlot α} (h : (list α).Clean slot) :
    (list α).faults slot = .empty := by
  have hadded : (list α).faults slot =
      merge none (indexed slot.bulk.length (slot.added.map ListSlot.elementFaults)) := by
    rw [← ListSlot.merge_addedFaults]
    show merge slot.bulkFaults.fault? (slot.bulkFaults.children ++ _) = _
    rw [h.1]
    rfl
  rw [hadded, merge_indexed_eq_empty_iff]
  intro e he
  rw [ListSlot.elementFaults, h.2 e he]
  rfl

/-- Every fault of a finished clean field is one of a part that stands in it. -/
theorem Clean.faults {s : Shape} {types : List EntityType} {view : s.PartView}
    (hview : PartView.Lawful types s view) {slot : s.Slot} (h : s.Clean slot) {path : FaultPath}
    {fault : Fault} (hmem : (path, fault) ∈ (s.faults slot).faults) :
    ∃ steps x rest, (steps, x) ∈ s.placed view (s.content slot) ∧ path = steps ++ rest ∧
      (rest, fault) ∈ x.faults.faults := by
  cases s with
  | required _ | optional _ =>
      have hempty : slot.faults = .empty := h
      rw [Shape.faults, hempty] at hmem
      cases hmem
  | requiredPart _ | optionalPart _ =>
      have hpart : slot.faults = (slot.value.map HasFaults.faults).getD .empty := h
      rw [Shape.faults, hpart] at hmem
      cases hvalue : slot.value with
      | none =>
          rw [hvalue] at hmem
          cases hmem
      | some a =>
          rw [hvalue] at hmem
          refine ⟨[], view a, path, ?_, rfl, ?_⟩
          · exact List.mem_map.mpr ⟨a, by rw [content, hvalue]; exact List.mem_cons_self, rfl⟩
          · rwa [hview.faults_view]
  | list _ =>
      rw [h.faults_list] at hmem
      cases hmem
  | parts _ =>
      have hbulk : slot.bulkFaults = .empty := h
      rw [Shape.faults, ListSlot.partFaults, hbulk, ListSlot.partFaultsFrom_eq,
        indexed_eq_map] at hmem
      rcases mem_faults_merge hmem with ⟨-, hown⟩ | ⟨c, hc, rest, rfl, hrest⟩
      · cases hown
      · obtain ⟨⟨t, i⟩, he, rfl⟩ := List.mem_map.mp hc
        rw [List.zipIdx_map] at he
        obtain ⟨⟨a, j⟩, ha, heq⟩ := List.mem_map.mp he
        obtain ⟨rfl, rfl⟩ := Prod.mk.inj heq
        refine ⟨[.index j], view a, rest, List.mem_map.mpr ⟨_, ha, rfl⟩, rfl, ?_⟩
        rwa [hview.faults_view]
  | namedParts _ =>
      have hbulk : slot.bulkFaults = .empty := h
      rw [Shape.faults, MapSlot.partFaults, hbulk] at hmem
      rcases mem_faults_merge hmem with ⟨-, hown⟩ | ⟨c, hc, rest, rfl, hrest⟩
      · cases hown
      · obtain ⟨e, he, rfl⟩ := List.mem_map.mp hc
        refine ⟨[.key e.1], view e.2, rest, List.mem_map.mpr ⟨e, he, rfl⟩, rfl, ?_⟩
        rwa [hview.faults_view]

end Shape

namespace Builder

/-- The entities that a call supplies to a builder. -/
def Call.supplied {t : EntityType} (c : Call t.layout) : List AnyEntity :=
  (t.layout.shape c.field).supplied (t.partView c.field) c.setter

/-- The first required field without a call. -/
def gap? {L : Layout} (calls : List (Call L)) : Option L.Field :=
  L.fields.find? fun f => (L.shape f).isRequired && calls.all fun c => c.field ≠ f

/-- A fault of an entity that belongs to a part which some call supplied, at the place where the
part stands. -/
def CarriedBy {t : EntityType} (calls : List (Call t.layout)) (r : Record t.layout)
    (e : FaultPath × Fault) : Prop :=
  ∃ c ∈ calls, ∃ x ∈ c.supplied, ∃ steps rest,
    (steps, x) ∈ (t.layout.shape c.field).placed (t.partView c.field) (r.get c.field) ∧
    e.1 = t.layout.key c.field :: (steps ++ rest) ∧ (rest, e.2) ∈ x.faults.faults

section

variable {t : EntityType} {calls : List (Call t.layout)}

/-- Without failed supplies all slots are clean, and all parts in them were supplied. -/
theorem clean_attempts (h : ∀ c ∈ calls, c.cause? = none) (mode : BuildMode) (f : t.layout.Field) :
    (t.layout.shape f).Clean (((new t.layout mode).attempts calls).slot f) ∧
      ∀ x ∈ (t.layout.shape f).stored (t.partView f) (((new t.layout mode).attempts calls).slot f),
        ∃ c ∈ calls, c.field = f ∧ x ∈ c.supplied := by
  -- a call stores what it supplies; what it might store besides needs a failed supply
  refine attempts_induction
    (P := fun f slot => (t.layout.shape f).Clean slot ∧
      ∀ x ∈ (t.layout.shape f).stored (t.partView f) slot,
        ∃ c ∈ calls, c.field = f ∧ x ∈ c.supplied)
    (fun c hc slot hslot => ⟨hslot.1.applied (h c hc), fun x hx => ?_⟩)
    (fun f => ⟨Shape.Clean.unset _, fun x hx => ?_⟩) f
  · rcases Shape.mem_stored_applied (t.partView_lawful c.field) hx with hold | hnew | hfallback
    · exact hslot.2 x hold
    · exact ⟨c, hc, rfl, hnew⟩
    · exact absurd (h c hc) hfallback.1
  · rw [show (new t.layout mode).slot f = (t.layout.shape f).unset from rfl,
      Shape.stored_unset] at hx
    cases hx

/-- Without failed supplies and missing fields the entity has no faults but those of its parts. -/
theorem carriedBy_of_mem_faults (h : ∀ c ∈ calls, c.cause? = none) (mode : BuildMode)
    {e : FaultPath × Fault}
    (he : e ∈ ((new t.layout mode).attempts calls).toRecord.faults.faults) :
    CarriedBy calls ((new t.layout mode).attempts calls).toRecord e := by
  obtain ⟨path, fault⟩ := e
  rcases mem_faults_merge he with ⟨-, hown⟩ | ⟨child, hchild, below, rfl, hbelow⟩
  · cases hown
  · obtain ⟨f, -, rfl⟩ := List.mem_map.mp hchild
    obtain ⟨hclean, hstored⟩ := clean_attempts h mode f
    obtain ⟨steps, x, rest, hplaced, rfl, hrest⟩ := hclean.faults (t.partView_lawful f) hbelow
    have hmember := Shape.mem_members_of_mem_placed hplaced
    obtain ⟨c, hc, rfl, hsupplied⟩ := hstored x (Shape.mem_stored_of_mem_members hmember)
    exact ⟨c, hc, x, hsupplied, steps, rest, hplaced, rfl, hrest⟩

end

variable {L : Layout} {calls : List (Call L)}

/-- Which required fields are missing does not depend on what was supplied. -/
theorem isMissing_attempts_new (h : ∀ c ∈ calls, c.cause? = none) (mode : BuildMode)
    (f : L.Field) :
    (L.shape f).isMissing (((new L mode).attempts calls).slot f) =
      ((L.shape f).isRequired && calls.all fun c => c.field ≠ f) := by
  rw [isMissing_attempts h]
  show ((L.shape f).isMissing (L.shape f).unset && _) = _
  rw [Shape.isMissing_unset]

/-- Calls up to a first failed supply. -/
theorem lockstep_run {pre post : List (Call L)} (hpre : ∀ c ∈ pre, c.cause? = none) :
    ∃ s u, (new L .strict).run pre = .ok s ∧ (new L .tolerant).run pre = .ok u ∧
      s.slot = u.slot ∧ ∀ c rest cause, post = c :: rest → c.cause? = some cause →
        s.call c = .error (.strict L.entity (L.key c.field) cause) ∧
        (new L .strict).run (pre ++ post) = .error (.strict L.entity (L.key c.field) cause) := by
  have hstrict := run_of_cause?_eq_none hpre (new L .strict)
  have htolerant := run_of_cause?_eq_none hpre (new L .tolerant)
  refine ⟨_, _, hstrict, htolerant, slot_attempts_congr hpre rfl, ?_⟩
  intro c rest cause hpost hc
  have hmode : ((new L .strict).attempts pre).mode = .strict := mode_attempts _ _
  have hcall := call_strict hmode hc
  refine ⟨hcall, ?_⟩
  unfold run at hstrict ⊢
  rw [hpost, List.foldlM_append, hstrict]
  show List.foldlM call ((new L .strict).attempts pre) (c :: rest) = _
  rw [List.foldlM_cons, hcall]
  rfl

/-- A build without failed supplies in which a required field had no call. -/
theorem lockstep_gap (h : ∀ c ∈ calls, c.cause? = none) {f : L.Field} (hf : gap? calls = some f) :
    ((new L .strict).attempts calls).build =
        .error (.strict L.entity (L.key f) (Fault.missing (L.name f)).cause) ∧
      ((new L .tolerant).attempts calls).settled.toRecord.faults.child? (L.key f) =
        some (.leaf (Fault.missing (L.name f))) := by
  obtain ⟨hgap, pre, post, hfields, hpre⟩ := List.find?_eq_some_iff_append.mp hf
  have hmissing : ∀ mode, (L.shape f).isMissing (((new L mode).attempts calls).slot f) = true :=
    fun mode => (isMissing_attempts_new h mode f).trans hgap
  constructor
  · refine build_strict_of_isMissing (mode_attempts _ _) hfields (fun g hg => ?_) (hmissing .strict)
    rw [isMissing_attempts_new h]
    exact (Bool.not_eq_true' _).mp (hpre g hg)
  · refine field?_of_subtree ?_ FaultTree.noConfusion
    rw [subtree_toRecord]
    exact Shape.faults_settled_of_isMissing (L.key f) (hmissing .tolerant)

/-- A build without failed supplies in which every required field had a call. -/
theorem lockstep_complete (h : ∀ c ∈ calls, c.cause? = none) (hcomplete : gap? calls = none)
    (mode : BuildMode) :
    ((new L mode).attempts calls).build = .ok ((new L mode).attempts calls).toRecord ∧
      ((new L mode).attempts calls).settled = (new L mode).attempts calls := by
  have hset : ∀ f, (L.shape f).isMissing (((new L mode).attempts calls).slot f) = false := by
    intro f
    rw [isMissing_attempts_new h]
    simpa using List.find?_eq_none.mp hcomplete f (L.mem_fields f)
  have hsettled := settled_eq_self hset
  refine ⟨?_, hsettled⟩
  rw [build_of_not_isMissing hset, hsettled]

end Builder

/-- The same calls to a strict and to a tolerant builder of any type of entity. While no supply
failed, both make the calls and hold the same slots, and the first call whose supply failed ends the
strict run with the cause of that call. Without failed supplies the strict build ends at the first
required field without a call, with the fault that the tolerant build records there; if there is no
such field it gives the entity that the tolerant build gives, and its faults are those of parts that
were supplied. -/
theorem lockstep (t : EntityType) (calls : List (Builder.Call t.layout)) :
    (∀ pre post, calls = pre ++ post → (∀ c ∈ pre, c.cause? = none) →
      ∃ s u, (Builder.new t.layout .strict).run pre = .ok s ∧
        (Builder.new t.layout .tolerant).run pre = .ok u ∧ s.slot = u.slot ∧
        ∀ c rest cause, post = c :: rest → c.cause? = some cause →
          s.call c = .error (.strict t.layout.entity (t.layout.key c.field) cause) ∧
          (Builder.new t.layout .strict).run calls =
            .error (.strict t.layout.entity (t.layout.key c.field) cause)) ∧
    ((∀ c ∈ calls, c.cause? = none) →
      ∃ s u r, (Builder.new t.layout .strict).run calls = .ok s ∧
        (Builder.new t.layout .tolerant).run calls = .ok u ∧ u.build = .ok r ∧
        match Builder.gap? calls with
        | some f =>
          s.build = .error
            (.strict t.layout.entity (t.layout.key f) (Fault.missing (t.layout.name f)).cause) ∧
          r.faults.child? (t.layout.key f) = some (.leaf (Fault.missing (t.layout.name f)))
        | none => s.build = .ok r ∧ ∀ e ∈ r.faults.faults, Builder.CarriedBy calls r e) := by
  constructor
  · intro pre post hcalls hpre
    subst hcalls
    exact Builder.lockstep_run hpre
  · intro h
    have htolerant : ((Builder.new t.layout .tolerant).attempts calls).build =
        .ok ((Builder.new t.layout .tolerant).attempts calls).settled.toRecord :=
      Builder.build_tolerant (Builder.mode_attempts _ _)
    refine ⟨_, _, _, Builder.run_of_cause?_eq_none h _, Builder.run_of_cause?_eq_none h _,
      htolerant, ?_⟩
    cases hgap : Builder.gap? calls with
    | some f => exact Builder.lockstep_gap h hgap
    | none =>
        have hstrict := Builder.lockstep_complete h hgap .strict
        have hsame : ((Builder.new t.layout .strict).attempts calls).settled.toRecord =
            ((Builder.new t.layout .tolerant).attempts calls).settled.toRecord :=
          Builder.toRecord_settled_congr (Builder.slot_attempts_congr h rfl)
        constructor
        · rw [hstrict.1, ← hsame, hstrict.2]
        · intro e he
          rw [(Builder.lockstep_complete h hgap .tolerant).2] at he ⊢
          exact Builder.carriedBy_of_mem_faults h .tolerant he

/-- Calls that give a node its required fields, and bounds about which nothing is known. -/
def namedNodeCalls : List (Builder.Call Node.layout) :=
  [⟨.id, .set 1⟩, ⟨.name, .set "Reader"⟩, ⟨.kind, .set .native⟩,
    ⟨.bounds, .set (Entity.placeholder Bounds)⟩]

/-- A call whose supply failed. -/
def unreadableName : Builder.Call Node.layout :=
  ⟨.name, .supply (.error (.text "unreadable")) none⟩

/-- A failed supply after these calls, a build without some of them, a build with all of them. -/
theorem lockstep_namedNode :
    (∃ s u, (Builder.new Node.layout .strict).run namedNodeCalls = .ok s ∧
      (Builder.new Node.layout .tolerant).run namedNodeCalls = .ok u ∧ s.slot = u.slot ∧
      s.call unreadableName = .error (.strict "NodeDef" (.field "name") (.text "unreadable"))) ∧
    (∃ s u r, (Builder.new Node.layout .strict).run (namedNodeCalls.drop 2) = .ok s ∧
      (Builder.new Node.layout .tolerant).run (namedNodeCalls.drop 2) = .ok u ∧ u.build = .ok r ∧
      s.build = .error (.strict "NodeDef" (.field "id") (Fault.missing "id").cause) ∧
      r.faults.child? (.field "id") = some (.leaf (Fault.missing "id"))) ∧
    (∃ s u r, (Builder.new Node.layout .strict).run namedNodeCalls = .ok s ∧
      (Builder.new Node.layout .tolerant).run namedNodeCalls = .ok u ∧ u.build = .ok r ∧
      s.build = .ok r ∧ ∀ e ∈ r.faults.faults,
        Builder.CarriedBy (t := .node) namedNodeCalls r e) := by
  have hcalls : ∀ c ∈ namedNodeCalls, c.cause? = none := by
    intro c hc
    simp only [namedNodeCalls, List.mem_cons, List.not_mem_nil, or_false] at hc
    rcases hc with rfl | rfl | rfl | rfl <;> rfl
  refine ⟨?_, ?_, ?_⟩
  · obtain ⟨s, u, hs, hu, hslot, hnext⟩ := (lockstep .node (namedNodeCalls ++ [unreadableName])).1
      namedNodeCalls [unreadableName] rfl hcalls
    exact ⟨s, u, hs, hu, hslot, (hnext _ _ _ rfl rfl).1⟩
  · exact (lockstep .node (namedNodeCalls.drop 2)).2 fun c hc => hcalls c (List.mem_of_mem_drop hc)
  · exact (lockstep .node namedNodeCalls).2 hcalls

end Flowsheet
