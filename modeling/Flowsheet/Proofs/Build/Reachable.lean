import Flowsheet.Proofs.Build.Coherence

/-!
# Entities that can be made

`Reachable` entities are those that can be made from placeholders by building, by building on from a
finished entity, and by marking with a fault, in any order, where the parts that are handed to a
builder can be made in the same way. Every one of them is coherent: the tree of each of its fields
goes with what the field holds, and a fault in any entity below it shows in it
(`reachable_coherent`).

The invariant of a builder is that its fields are sound and that all parts in them can be made
(`Builder.Sound`). Every setter call preserves it, refused or not.
-/

namespace Flowsheet

/-! ### Parts in builders and calls -/

namespace Shape

/-- The entities that are stored in a field that is being built. -/
def stored : (s : Shape) → s.PartView → s.Slot → List AnyEntity
  | required _, _, _ | optional _, _, _ | list _, _, _ => []
  | @requiredPart _ _, view, slot | @optionalPart _ _, view, slot => slot.value.toList.map view
  | @parts _ _, view, slot => slot.bulk.map view ++ slot.added.map fun e => view e.1
  | @namedParts _ _, view, slot =>
    slot.bulk.map (fun e => view e.2) ++ slot.put.map fun e => view e.2

/-- The entities that a call hands over, as values or as fallbacks. -/
def given : (s : Shape) → s.PartView → s.Call → List AnyEntity
  | required _, _, _ | optional _, _, _ | list _, _, _ => []
  | @requiredPart _ _, view, .set v | @optionalPart _ _, view, .set v => [view v]
  | @requiredPart _ _, view, .supply v fallback =>
    v.toOption.toList.map view ++ fallback.toList.map view
  | @optionalPart _ _, view, .supply v fallback =>
    v.toOption.join.toList.map view ++ fallback.toList.map view
  | @parts _ _, view, .setAll vs => vs.map view
  | @parts _ _, view, .supplyAll vs fallback => (vs.toOption.getD []).map view ++ fallback.map view
  | @parts _ _, view, .add v => [view v]
  | @parts _ _, view, .supplyOne v fallback => v.toOption.toList.map view ++ [view fallback]
  | @namedParts _ _, view, .setAll es => es.map fun e => view e.2
  | @namedParts _ _, view, .supplyAll es fallback =>
    (es.toOption.getD []).map (fun e => view e.2) ++ fallback.map fun e => view e.2
  | @namedParts _ _, view, .put _ v => [view v]
  | @namedParts _ _, view, .supplyOne _ v fallback =>
    v.toOption.toList.map view ++ [view fallback]

/-- The entities that a call supplies, fallbacks not included. -/
def supplied : (s : Shape) → s.PartView → s.Call → List AnyEntity
  | required _, _, _ | optional _, _, _ | list _, _, _ => []
  | @requiredPart _ _, view, .set v | @optionalPart _ _, view, .set v => [view v]
  | @requiredPart _ _, view, .supply v _ => v.toOption.toList.map view
  | @optionalPart _ _, view, .supply v _ => v.toOption.join.toList.map view
  | @parts _ _, view, .setAll vs => vs.map view
  | @parts _ _, view, .supplyAll vs _ => (vs.toOption.getD []).map view
  | @parts _ _, view, .add v => [view v]
  | @parts _ _, view, .supplyOne v _ => v.toOption.toList.map view
  | @namedParts _ _, view, .setAll es => es.map fun e => view e.2
  | @namedParts _ _, view, .supplyAll es _ => (es.toOption.getD []).map fun e => view e.2
  | @namedParts _ _, view, .put _ v => [view v]
  | @namedParts _ _, view, .supplyOne _ v _ => v.toOption.toList.map view

/-- What a call supplies is among what it hands over. -/
theorem supplied_subset_given (s : Shape) (view : s.PartView) (c : s.Call) :
    s.supplied view c ⊆ s.given view c := by
  cases s with
  | required _ | optional _ | list _ => exact List.Subset.refl _
  | requiredPart _ | optionalPart _ =>
      rcases c with v | ⟨v, fallback⟩
      · exact List.Subset.refl _
      · exact List.subset_append_left _ _
  | parts _ =>
      rcases c with vs | ⟨vs, fallback⟩ | v | ⟨v, fallback⟩
      · exact List.Subset.refl _
      · exact List.subset_append_left _ _
      · exact List.Subset.refl _
      · exact List.subset_append_left _ _
  | namedParts _ =>
      rcases c with es | ⟨es, fallback⟩ | ⟨k, v⟩ | ⟨k, v, fallback⟩
      · exact List.Subset.refl _
      · exact List.subset_append_left _ _
      · exact List.Subset.refl _
      · exact List.subset_append_left _ _

/-- Nothing is stored in an untouched field. -/
theorem stored_unset (s : Shape) (view : s.PartView) : s.stored view s.unset = [] := by
  cases s <;> rfl

/-- Nothing stands in a field of a placeholder. -/
theorem members_blank (s : Shape) (view : s.PartView) : s.members view s.blank = [] := by
  cases s <;> rfl

/-- A field that is taken over stores what the finished entity holds. -/
theorem stored_copied (s : Shape) (view : s.PartView) (c : s.Content) (t : FaultTree) :
    s.stored view (s.copied c t) = s.members view c := by
  cases s with
  | required _ | optional _ | requiredPart _ | optionalPart _ | list _ => rfl
  | parts _ | namedParts _ => simp [stored, copied, members, ListSlot.copied, MapSlot.copied]

/-- A finished field holds nothing that was not stored. -/
theorem mem_stored_of_mem_members {s : Shape} {view : s.PartView} {slot : s.Slot} {x : AnyEntity}
    (h : x ∈ s.members view (s.content slot)) : x ∈ s.stored view slot := by
  cases s with
  | required _ | optional _ | requiredPart _ | optionalPart _ | list _ => exact h
  | parts _ => simpa [stored, members, content, ListSlot.values] using h
  | namedParts _ =>
      obtain ⟨e, he, rfl⟩ := List.mem_map.mp h
      rw [stored, ← List.map_append]
      exact List.mem_map.mpr ⟨e, List.mem_append.mpr (Assoc.mem_of_mem_extend he), rfl⟩

/-- The end of a build stores nothing new. -/
theorem mem_stored_of_settled {s : Shape} {view : s.PartView} {slot : s.Slot} {key : FaultKey}
    {x : AnyEntity} (h : x ∈ s.stored view (s.settled key slot)) : x ∈ s.stored view slot := by
  cases hm : s.isMissing slot with
  | false => rwa [settled_of_not_isMissing key hm] at h
  | true =>
      cases s with
      | required _ => cases h
      | requiredPart _ =>
          rw [settled, if_pos (by simpa [isMissing] using hm)] at h
          cases h
      | optional _ | optionalPart _ | list _ | parts _ | namedParts _ => cases hm

/-- One more element. -/
theorem mem_stored_push {α : Type} [HasFaults α] {view : α → AnyEntity} {slot : ListSlot α} {v : α}
    {x : AnyEntity} (h : x ∈ (parts α).stored view (slot.push v)) :
    x ∈ (parts α).stored view slot ∨ x = view v := by
  simp only [stored, ListSlot.push, List.map_append, List.mem_append] at h ⊢
  rcases h with hbulk | hadded | hv
  · exact Or.inl (Or.inl hbulk)
  · exact Or.inl (Or.inr hadded)
  · exact Or.inr (List.mem_singleton.mp hv)

/-- One more entry. -/
theorem mem_stored_insert {α : Type} [HasFaults α] {view : α → AnyEntity} {slot : MapSlot α}
    {k : String} {v : α} {x : AnyEntity} (h : x ∈ (namedParts α).stored view (slot.insert k v)) :
    x ∈ (namedParts α).stored view slot ∨ x = view v := by
  rcases List.mem_append.mp h with hbulk | hput
  · exact Or.inl (List.mem_append_left _ hbulk)
  · obtain ⟨e, he, rfl⟩ := List.mem_map.mp hput
    rcases Assoc.mem_of_mem_insert he with rfl | he
    · exact Or.inr rfl
    · exact Or.inl (List.mem_append_right _ (List.mem_map.mpr ⟨e, he, rfl⟩))

/-- What a failed call can store: a fallback, as it is or with the fault it stands in for. -/
def FallenBack (s : Shape) (view : s.PartView) (c : s.Call) (x : AnyEntity) : Prop :=
  s.cause? c ≠ none ∧ (x ∈ s.given view c ∨ ∃ y ∈ s.given view c, ∃ fault, x = y.mark fault)

/-- A list or map that is given as a whole takes the place of the one before. -/
theorem mem_append_of_bulk {old new added given : List AnyEntity} {x : AnyEntity} {P : Prop}
    (h : x ∈ new ++ added) (hgiven : x ∈ new → x ∈ given ∨ P) :
    x ∈ old ++ added ∨ x ∈ given ∨ P := by
  rcases List.mem_append.mp h with hnew | hadded
  · exact Or.inr (hgiven hnew)
  · exact Or.inl (List.mem_append_right _ hadded)

/-- A call stores nothing but what it supplies, or a fallback if the supply failed. -/
theorem mem_stored_applied {s : Shape} {types : List EntityType} {view : s.PartView}
    (hview : PartView.Lawful types s view) {c : s.Call} {slot : s.Slot} {x : AnyEntity}
    (h : x ∈ s.stored view (s.applied c slot)) :
    x ∈ s.stored view slot ∨ x ∈ s.supplied view c ∨ s.FallenBack view c x := by
  cases s with
  | required _ | optional _ | list _ => cases h
  | requiredPart _ =>
      rcases c with v | ⟨e | v, _ | fallback⟩
      · exact Or.inr (Or.inl h)
      · cases h
      · obtain rfl := List.mem_singleton.mp h
        exact Or.inr (Or.inr ⟨nofun, Or.inr ⟨_, List.mem_cons_self, ⟨e⟩, hview.view_mark _ _⟩⟩)
      · exact Or.inr (Or.inl h)
      · exact Or.inr (Or.inl h)
  | optionalPart _ =>
      rcases c with v | ⟨e | _ | v, _ | fallback⟩
      · exact Or.inr (Or.inl h)
      · cases h
      · obtain rfl := List.mem_singleton.mp h
        exact Or.inr (Or.inr ⟨nofun, Or.inr ⟨_, List.mem_cons_self, ⟨e⟩, hview.view_mark _ _⟩⟩)
      · cases h
      · cases h
      · exact Or.inr (Or.inl h)
      · exact Or.inr (Or.inl h)
  -- a call about the whole replaces the bulk, one about a member stores the member besides
  | parts _ =>
      rcases c with vs | ⟨e | vs, fallback⟩ | v | ⟨e | v, fallback⟩
      · exact mem_append_of_bulk h Or.inl
      · refine mem_append_of_bulk h fun hnew => Or.inr ⟨nofun, Or.inl ?_⟩
        exact List.mem_append_right _ hnew
      · exact mem_append_of_bulk h Or.inl
      · refine (mem_stored_push h).imp_right ?_
        rintro rfl
        exact Or.inl List.mem_cons_self
      · refine (mem_stored_push h).imp_right ?_
        rintro rfl
        exact Or.inr ⟨nofun, Or.inr ⟨_, List.mem_cons_self, ⟨e⟩, hview.view_mark _ _⟩⟩
      · refine (mem_stored_push h).imp_right ?_
        rintro rfl
        exact Or.inl List.mem_cons_self
  | namedParts _ =>
      rcases c with es | ⟨e | es, fallback⟩ | ⟨k, v⟩ | ⟨k, e | v, fallback⟩
      · exact mem_append_of_bulk h Or.inl
      · refine mem_append_of_bulk h fun hnew => Or.inr ⟨nofun, Or.inl ?_⟩
        exact List.mem_append_right _ hnew
      · exact mem_append_of_bulk h Or.inl
      · refine (mem_stored_insert h).imp_right ?_
        rintro rfl
        exact Or.inl List.mem_cons_self
      · refine (mem_stored_insert h).imp_right ?_
        rintro rfl
        exact Or.inr ⟨nofun, Or.inr ⟨_, List.mem_cons_self, ⟨e⟩, hview.view_mark _ _⟩⟩
      · refine (mem_stored_insert h).imp_right ?_
        rintro rfl
        exact Or.inl List.mem_cons_self

end Shape

/-! ### Entities -/

namespace AnyEntity

/-- The entities that stand in a field. -/
def members (x : AnyEntity) (f : x.1.layout.Field) : List AnyEntity :=
  (x.1.layout.shape f).members (x.1.partView f) (x.2.get f)

/-- The tree of every field goes with what the field holds. -/
def Coherent (x : AnyEntity) : Prop :=
  ∀ f, (x.1.layout.shape f).Coherent (x.2.get f) (x.faults.subtree (x.1.layout.name f))

end AnyEntity

/-- An entity stands somewhere below another: in one of its fields, or below an entity there. -/
inductive Below : AnyEntity → AnyEntity → Prop where
  /-- In a field. -/
  | direct {x y : AnyEntity} {f : x.1.layout.Field} (h : y ∈ x.members f) : Below y x
  /-- Below an entity in a field. -/
  | deeper {x y z : AnyEntity} {f : x.1.layout.Field} (h : y ∈ x.members f) (hz : Below z y) :
    Below z x

/-- The entities that a call hands to a builder. -/
def Builder.Call.given {t : EntityType} (c : Builder.Call t.layout) : List AnyEntity :=
  (t.layout.shape c.field).given (t.partView c.field) c.setter

/-- Whole maps that a call hands to a builder have distinct keys. -/
def Builder.Call.Distinct {t : EntityType} (c : Builder.Call t.layout) : Prop :=
  (t.layout.shape c.field).CallDistinct c.setter

/-- Entities that can be made, with parts that can be made. -/
inductive Reachable : AnyEntity → Prop where
  /-- An entity about which nothing is known. -/
  | placeholder (t : EntityType) : Reachable ⟨t, Record.placeholder t.layout⟩
  /-- A build in either mode, with any calls, some of which may be refused. -/
  | built {t : EntityType} (mode : BuildMode) (calls : List (Builder.Call t.layout))
      (hdistinct : ∀ c ∈ calls, c.Distinct) (hgiven : ∀ c ∈ calls, ∀ x ∈ c.given, Reachable x)
      {r : Record t.layout}
      (hbuild : ((Builder.new t.layout mode).attempts calls).build = .ok r) : Reachable ⟨t, r⟩
  /-- A build that goes on from a finished entity. -/
  | rebuilt {t : EntityType} {start : Record t.layout} (hstart : Reachable ⟨t, start⟩)
      (calls : List (Builder.Call t.layout)) (hdistinct : ∀ c ∈ calls, c.Distinct)
      (hgiven : ∀ c ∈ calls, ∀ x ∈ c.given, Reachable x) {r : Record t.layout}
      (hbuild : ((Builder.ofRecord start).attempts calls).build = .ok r) : Reachable ⟨t, r⟩
  /-- One more fault. -/
  | marked {x : AnyEntity} (h : Reachable x) (fault : Fault) : Reachable (x.mark fault)

/-- What stands in for an entity can be made. -/
theorem Reachable.of_eq_placeholder (t : EntityType) {r : Record t.layout}
    (h : r = Record.placeholder t.layout) : Reachable ⟨t, r⟩ := by
  rw [h]
  exact Reachable.placeholder t

/-! ### Builders -/

namespace Builder

variable {t : EntityType}

/-- All fields are sound, and all parts in them can be made. -/
def Sound (b : Builder t.layout) : Prop :=
  ∀ f, (t.layout.shape f).Sound (b.slot f) ∧
    ∀ x ∈ (t.layout.shape f).stored (t.partView f) (b.slot f), Reachable x

/-- A new builder is sound. -/
theorem Sound.new (t : EntityType) (mode : BuildMode) : Sound (Builder.new t.layout mode) := by
  intro f
  refine ⟨Shape.Sound.unset _, fun x hx => ?_⟩
  rw [show (Builder.new t.layout mode).slot f = (t.layout.shape f).unset from rfl,
    Shape.stored_unset] at hx
  cases hx

/-- A builder that goes on from a coherent entity is sound, if all that stands in it can be made. -/
theorem Sound.ofRecord {r : Record t.layout} (hcoherent : AnyEntity.Coherent ⟨t, r⟩)
    (hmembers : ∀ f, ∀ x ∈ AnyEntity.members ⟨t, r⟩ f, Reachable x) :
    Sound (Builder.ofRecord r) := by
  intro f
  refine ⟨Shape.Sound.copied (hcoherent f), fun x hx => hmembers f x ?_⟩
  rwa [show (Builder.ofRecord r).slot f = (t.layout.shape f).copied (r.get f) _ from rfl,
    Shape.stored_copied] at hx

/-- One call that is not refused. -/
theorem Sound.applied {c : Call t.layout} (hc : c.Distinct) (hgiven : ∀ x ∈ c.given, Reachable x)
    {slot : (t.layout.shape c.field).Slot}
    (h : (t.layout.shape c.field).Sound slot ∧
      ∀ x ∈ (t.layout.shape c.field).stored (t.partView c.field) slot, Reachable x) :
    (t.layout.shape c.field).Sound ((t.layout.shape c.field).applied c.setter slot) ∧
      ∀ x ∈ (t.layout.shape c.field).stored (t.partView c.field)
        ((t.layout.shape c.field).applied c.setter slot), Reachable x := by
  refine ⟨h.1.applied hc, fun x hx => ?_⟩
  rcases Shape.mem_stored_applied (t.partView_lawful c.field) hx with
    hold | hnew | ⟨-, hfallback | ⟨y, hy, fault, rfl⟩⟩
  · exact h.2 x hold
  · exact hgiven x (Shape.supplied_subset_given _ _ _ hnew)
  · exact hgiven x hfallback
  · exact (hgiven y hy).marked fault

/-- Any sequence of calls, some of which may be refused. -/
theorem Sound.attempts {b : Builder t.layout} (h : b.Sound) {calls : List (Call t.layout)}
    (hdistinct : ∀ c ∈ calls, c.Distinct) (hgiven : ∀ c ∈ calls, ∀ x ∈ c.given, Reachable x) :
    (b.attempts calls).Sound :=
  attempts_induction
    (P := fun f slot => (t.layout.shape f).Sound slot ∧
      ∀ x ∈ (t.layout.shape f).stored (t.partView f) slot, Reachable x)
    (fun c hc _ hslot => Sound.applied (hdistinct c hc) (hgiven c hc) hslot) h

/-- What a build in either mode hands over. -/
theorem Sound.build {b : Builder t.layout} (h : b.Sound) {r : Record t.layout}
    (hbuild : b.build = .ok r) :
    AnyEntity.Coherent ⟨t, r⟩ ∧ ∀ f, ∀ x ∈ AnyEntity.members ⟨t, r⟩ f, Reachable x := by
  obtain rfl := eq_toRecord_settled_of_build hbuild
  constructor
  · intro f
    show (t.layout.shape f).Coherent _ (b.settled.toRecord.faults.subtree (t.layout.name f))
    rw [subtree_toRecord]
    exact ((h f).1.settled _).coherent
  · intro f x hx
    exact (h f).2 x (Shape.mem_stored_of_settled (Shape.mem_stored_of_mem_members hx))

end Builder

/-! ### Coherence of everything that can be made -/

/-- A field that need not be there is not among those that a placeholder misses. -/
theorem subtree_placeholder (L : Layout) (f : L.Field) (h : (L.shape f).isRequired = false) :
    (Record.placeholder L).faults.subtree (L.name f) = .empty := by
  rw [Record.placeholder_eq, Builder.subtree_toRecord]
  refine (Shape.faults_settled_unset (L.key f) (L.shape f)).trans ?_
  rw [h]
  rfl

/-- Entities that can be made are coherent, and so are the entities in their fields. -/
theorem Reachable.invariant {x : AnyEntity} (h : Reachable x) :
    x.Coherent ∧ ∀ f, ∀ y ∈ x.members f, Reachable y := by
  -- of the parts that are handed over only `Reachable` is used, not the induction hypothesis
  induction h with
  | placeholder t =>
      refine ⟨fun f => Shape.coherent_blank (subtree_placeholder t.layout f), fun f y hy => ?_⟩
      have hblank : y ∈ (t.layout.shape f).members (t.partView f) (t.layout.shape f).blank := hy
      rw [Shape.members_blank] at hblank
      cases hblank
  | built mode calls hdistinct hgiven hbuild _ =>
      exact ((Builder.Sound.new _ mode).attempts hdistinct hgiven).build hbuild
  | rebuilt _ calls hdistinct hgiven hbuild ih _ =>
      exact ((Builder.Sound.ofRecord ih.1 ih.2).attempts hdistinct hgiven).build hbuild
  | @marked x _ fault ih =>
      refine ⟨fun f => ?_, ih.2⟩
      show (x.1.layout.shape f).Coherent _ ((x.faults.inject fault).subtree (x.1.layout.name f))
      rw [FaultTree.subtree_inject]
      exact ih.1 f

/-- A fault in an entity shows in every entity above it. -/
theorem Reachable.hasFaults_of_below {x y : AnyEntity} (h : Reachable x) (hy : Below y x)
    (hfaults : y.faults.hasFaults = true) : x.faults.hasFaults = true := by
  induction hy with
  | direct hmem =>
      exact FaultTree.hasFaults_of_subtree
        ((h.invariant.1 _).ne_empty (EntityType.partView_lawful _ _) hmem hfaults)
  | deeper hmem _ ih =>
      exact FaultTree.hasFaults_of_subtree
        ((h.invariant.1 _).ne_empty (EntityType.partView_lawful _ _) hmem
          (ih (h.invariant.2 _ _ hmem) hfaults))

/-- Every entity that can be made is coherent, and a fault in any entity below it shows in it. -/
theorem reachable_coherent {x : AnyEntity} (h : Reachable x) :
    x.Coherent ∧ ∀ y, Below y x → y.faults.hasFaults = true → x.faults.hasFaults = true :=
  ⟨h.invariant.1, fun _ hy hfaults => h.hasFaults_of_below hy hfaults⟩

/-- Calls that leave a node with a fallback for its bounds and with a port about which nothing is
known. -/
def faultyNodeCalls : List (Builder.Call Node.layout) :=
  [⟨.bounds, .supply (.error (.text "no bounds")) (some (Entity.placeholder Bounds))⟩,
    ⟨.inPorts, .add (Entity.placeholder Port)⟩]

/-- These calls hand over what can be made: placeholders of bounds and of a port. -/
theorem reachable_given_of_mem_faultyNodeCalls {c : Builder.Call Node.layout}
    (hc : c ∈ faultyNodeCalls) {x : AnyEntity} (hx : x ∈ Builder.Call.given (t := .node) c) :
    Reachable x := by
  rcases List.mem_cons.mp hc with rfl | hc
  · rw [List.mem_singleton.mp hx]
    exact Reachable.of_eq_placeholder .bounds (Entity.toRecord_ofRecord (E := Bounds) _)
  · obtain rfl := List.mem_singleton.mp hc
    rw [List.mem_singleton.mp hx]
    exact Reachable.of_eq_placeholder .port (Entity.toRecord_ofRecord (E := Port) _)

/-- The node that is built with these calls, built on with them again, and marked. -/
def faultyNode : Record Node.layout :=
  let built := ((Builder.new Node.layout .tolerant).attempts faultyNodeCalls).settled.toRecord
  let rebuilt := ((Builder.ofRecord built).attempts faultyNodeCalls).settled.toRecord
  { rebuilt with faults := rebuilt.faults.inject ⟨.text "given up"⟩ }

/-- The fallback that its bounds are. -/
def fallbackBounds : Bounds := HasFaults.mark ⟨.text "no bounds"⟩ (Entity.placeholder Bounds)

/-- The tree of the node's bounds is the bounds' own, below its two ports stands the tree of each,
and the bounds' fault shows in the node. -/
theorem reachable_coherent_faultyNode :
    Reachable ⟨.node, faultyNode⟩ ∧ AnyEntity.Coherent ⟨.node, faultyNode⟩ ∧
    (faultyNode.get .bounds = some fallbackBounds ∧
      faultyNode.faults.subtree "bounds" = HasFaults.faults fallbackBounds) ∧
    (faultyNode.get .inPorts = [Entity.placeholder Port, Entity.placeholder Port] ∧
      (faultyNode.faults.subtree "in_ports").child? (.index 1) =
        some (HasFaults.faults (Entity.placeholder Port))) ∧
    Below ⟨.bounds, Entity.toRecord fallbackBounds⟩ ⟨.node, faultyNode⟩ ∧
    faultyNode.faults.hasFaults = true := by
  have hdistinct : ∀ c ∈ faultyNodeCalls, Builder.Call.Distinct (t := .node) c := by
    intro c hc
    rcases List.mem_cons.mp hc with rfl | hc
    · trivial
    · obtain rfl := List.mem_singleton.mp hc
      trivial
  have hbuilt := Reachable.built (t := .node) .tolerant faultyNodeCalls hdistinct
    (fun c hc x hx => reachable_given_of_mem_faultyNodeCalls hc hx) (Builder.build_tolerant rfl)
  have hrebuilt := Reachable.rebuilt hbuilt faultyNodeCalls hdistinct
    (fun c hc x hx => reachable_given_of_mem_faultyNodeCalls hc hx) (Builder.build_tolerant rfl)
  have hmarked : Reachable ⟨.node, faultyNode⟩ := hrebuilt.marked ⟨.text "given up"⟩
  obtain ⟨hcoherent, hshows⟩ := reachable_coherent hmarked
  have hbounds : faultyNode.get .bounds = some fallbackBounds := rfl
  have hports : faultyNode.get .inPorts = [Entity.placeholder Port, Entity.placeholder Port] := rfl
  have hbelow : Below ⟨.bounds, Entity.toRecord fallbackBounds⟩ ⟨.node, faultyNode⟩ :=
    Below.direct (f := Node.Field.bounds) (List.mem_singleton.mpr rfl)
  refine ⟨hmarked, hcoherent, ⟨hbounds, ?_⟩, ⟨hports, ?_⟩, hbelow, ?_⟩
  · exact (hcoherent Node.Field.bounds _ hbounds).1
  · exact (hcoherent Node.Field.inPorts).1 (.index 1)
  · exact hshows _ hbelow rfl

end Flowsheet
