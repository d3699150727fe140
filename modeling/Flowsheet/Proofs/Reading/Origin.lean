import Flowsheet.Proofs.Build.Complete
import Flowsheet.Proofs.Reading.Run

/-!
# Loaded workflows can be made

Reading a document makes setter calls and nothing else: a field that is read successfully is left
by some list of calls that are not refused (`Shape.exists_calls_of_read`), and so is a builder
(`Builder.exists_calls_of_readFields`). Hence whatever a load gives, in either mode, is an entity
that can be made (`LoadOptions.reachable_of_loadDocument`), and what holds of those holds of it:
above all, none has a required field without a value and without a tree (`no_silent_gap`).

Parts are read before they are handed over. `Shape.MadeBy` says of a field's reader that the parts
it gives can be made; for configurations this is by induction on the depth up to which they are
read.
-/

namespace Flowsheet

/-! ### Reads as lists of calls -/

/-- A pass that reads something at each item and then makes a call makes a list of calls. -/
theorem exists_calls_of_foldlM {σ ι ρ γ ε : Type} (read : ι → Except ε ρ) (call : ι → ρ → γ)
    (act : σ → γ → Except ε σ) {items : List ι} {s next : σ}
    (h : items.foldlM (fun s x => (read x).bind fun r => act s (call x r)) s = .ok next) :
    ∃ cs : List γ, cs.foldlM act s = .ok next ∧
      ∀ c ∈ cs, ∃ x ∈ items, ∃ r, read x = .ok r ∧ c = call x r := by
  induction items generalizing s with
  | nil => exact ⟨[], h, fun c hc => absurd hc List.not_mem_nil⟩
  | cons x rest ih =>
      rw [List.foldlM_cons] at h
      obtain ⟨mid, hstep, hrest⟩ := exists_of_bind_eq_ok h
      obtain ⟨r, hread, hact⟩ := exists_of_bind_eq_ok hstep
      obtain ⟨cs, hcs, hmem⟩ := ih hrest
      refine ⟨call x r :: cs, ?_, fun c hc => ?_⟩
      · rw [List.foldlM_cons, hact]
        exact hcs
      · rcases List.mem_cons.mp hc with rfl | hc
        · exact ⟨x, List.mem_cons_self, r, hread, rfl⟩
        · obtain ⟨y, hy, found⟩ := hmem c hc
          exact ⟨y, List.mem_cons_of_mem _ hy, found⟩

namespace Shape

/-- The parts that a reader gives, and the part that stands in for one that cannot be read, can be
made. -/
def MadeBy : (s : Shape) → s.PartView → s.Reader → Prop
  | required _, _, _ | optional _, _, _ | list _, _, _ => True
  | @requiredPart _ _, view, reader | @optionalPart _ _, view, reader =>
    ∀ mode d a, reader mode d = .ok (.ok a) → Reachable (view a)
  | @parts _ _, view, reader | @namedParts _ _, view, reader =>
    (∀ mode d a, reader.read mode d = .ok (.ok a) → Reachable (view a)) ∧
      Reachable (view reader.fallback)

/-- A call that hands over only what can be made. -/
def IsMade (s : Shape) (view : s.PartView) (c : s.Call) : Prop :=
  s.CallDistinct c ∧ ∀ x ∈ s.given view c, Reachable x

/-- A call that hands over no parts hands over only what can be made. -/
theorem isMade_of_given_eq_nil {s : Shape} {view : s.PartView} {c : s.Call}
    (hc : s.CallDistinct c) (h : s.given view c = []) : s.IsMade view c := by
  refine ⟨hc, fun x hx => ?_⟩
  rw [h] at hx
  cases hx

/-- One call. -/
theorem exists_calls_of_apply {scope : Scope} {key : FaultKey} {s : Shape} {view : s.PartView}
    {c : s.Call} {slot next : s.Slot} (h : s.apply scope key c slot = .ok next)
    (hc : s.IsMade view c) :
    ∃ cs : List s.Call, cs.foldlM (fun slot c => s.apply scope key c slot) slot = .ok next ∧
      ∀ c ∈ cs, s.IsMade view c := by
  refine ⟨[c], ?_, fun c' hc' => ?_⟩
  · rw [List.foldlM_cons, h]
    rfl
  · rwa [List.mem_singleton.mp hc']

/-- A supply of what was read hands over the part, if there is one, and the fallback. -/
theorem mem_supplyOf {α : Type} {view : α → AnyEntity} {r : Except FieldError α}
    {fallback : List AnyEntity} {x : AnyEntity}
    (h : x ∈ (supplyOf r).toOption.toList.map view ++ fallback) :
    (∃ a, r = .ok a ∧ x = view a) ∨ x ∈ fallback := by
  rcases List.mem_append.mp h with hread | hfallback
  · cases r with
    | error e => cases hread
    | ok a => exact Or.inl ⟨a, rfl, List.mem_singleton.mp hread⟩
  · exact Or.inr hfallback

/-- A member of a list or map that is supplied as it was read, or else its fallback, can be made. -/
theorem reachable_of_supplied {α : Type} {view : α → AnyEntity} {reader : ItemReader α}
    (hmade : (∀ mode d a, reader.read mode d = .ok (.ok a) → Reachable (view a)) ∧
      Reachable (view reader.fallback))
    {mode : BuildMode} {d : Document} {r : Except FieldError α} (hread : reader.read mode d = .ok r)
    {x : AnyEntity} (hx : x ∈ (supplyOf r).toOption.toList.map view ++ [view reader.fallback]) :
    Reachable x := by
  rcases mem_supplyOf hx with ⟨a, rfl, rfl⟩ | hfallback
  · exact hmade.1 _ _ _ hread
  · rw [List.mem_singleton.mp hfallback]
    exact hmade.2

/-- A field that is read successfully is left by calls that hand over only what can be made. -/
theorem exists_calls_of_read {scope : Scope} {key : FaultKey} {s : Shape} {view : s.PartView}
    {reader : s.Reader} (hmade : s.MadeBy view reader) {d : Document} {slot next : s.Slot}
    (h : s.read scope key reader d slot = .ok next) :
    ∃ cs : List s.Call, cs.foldlM (fun slot c => s.apply scope key c slot) slot = .ok next ∧
      ∀ c ∈ cs, s.IsMade view c := by
  cases s with
  | required _ =>
      exact exists_calls_of_apply (s := required _)
        (c := SlotCall.supply (supplyOf (reader d)) none) h (isMade_of_given_eq_nil trivial rfl)
  | optional _ =>
      exact exists_calls_of_apply (s := optional _)
        (c := SlotCall.supply ((supplyOf (reader d)).map some) none) h
        (isMade_of_given_eq_nil trivial rfl)
  | requiredPart α =>
      obtain ⟨r, hread, happly⟩ := exists_of_bind_eq_ok h
      refine exists_calls_of_apply (s := requiredPart α)
        (c := SlotCall.supply (supplyOf r) none) happly ⟨trivial, fun x hx => ?_⟩
      rcases mem_supplyOf hx with ⟨a, rfl, rfl⟩ | hnone
      · exact hmade _ _ _ hread
      · cases hnone
  | optionalPart α =>
      obtain ⟨r, hread, happly⟩ := exists_of_bind_eq_ok h
      refine exists_calls_of_apply (s := optionalPart α)
        (c := SlotCall.supply ((supplyOf r).map some) none) happly ⟨trivial, fun x hx => ?_⟩
      cases r with
      | error e => cases hx
      | ok a =>
          obtain rfl := List.mem_singleton.mp hx
          exact hmade _ _ _ hread
  -- a whole that cannot be read is one supply; else there is one supply for each member
  | list α =>
      simp only [read] at h
      cases hitems : d.asItems with
      | error e =>
          rw [hitems] at h
          exact exists_calls_of_apply (s := list α)
            (c := ListCall.supplyAll (.error (.field e)) []) h
            (isMade_of_given_eq_nil trivial rfl)
      | ok items =>
          rw [hitems] at h
          obtain ⟨cs, hcs, -⟩ := exists_calls_of_foldlM (reader.read scope.mode)
            (fun _ r => .supplyOne (supplyOf r) reader.fallback)
            (fun slot c => (list α).apply scope key c slot) h
          exact ⟨cs, hcs, fun c _ => isMade_of_given_eq_nil trivial rfl⟩
  | parts α =>
      simp only [read] at h
      cases hitems : d.asItems with
      | error e =>
          rw [hitems] at h
          exact exists_calls_of_apply (s := parts α)
            (c := ListCall.supplyAll (.error (.field e)) []) h
            (isMade_of_given_eq_nil trivial rfl)
      | ok items =>
          rw [hitems] at h
          obtain ⟨cs, hcs, hmem⟩ := exists_calls_of_foldlM (reader.read scope.mode)
            (fun _ r => .supplyOne (supplyOf r) reader.fallback)
            (fun slot c => (parts α).apply scope key c slot) h
          refine ⟨cs, hcs, fun c hc => ?_⟩
          obtain ⟨item, -, r, hread, rfl⟩ := hmem c hc
          exact ⟨trivial, fun x hx => reachable_of_supplied hmade hread hx⟩
  | namedParts α =>
      simp only [read] at h
      cases hentries : d.asEntries with
      | error e =>
          rw [hentries] at h
          refine exists_calls_of_apply (s := namedParts α)
            (c := MapCall.supplyAll (.error (.field e)) []) h (isMade_of_given_eq_nil ?_ rfl)
          refine ⟨fun es hes => ?_, List.nodup_nil⟩
          cases hes
      | ok entries =>
          rw [hentries] at h
          obtain ⟨cs, hcs, hmem⟩ := exists_calls_of_foldlM
            (fun e : String × Document => reader.read scope.mode e.2)
            (fun e r => .supplyOne e.1 (supplyOf r) reader.fallback)
            (fun slot c => (namedParts α).apply scope key c slot) h
          refine ⟨cs, hcs, fun c hc => ?_⟩
          obtain ⟨entry, -, r, hread, rfl⟩ := hmem c hc
          exact ⟨trivial, fun x hx => reachable_of_supplied hmade hread hx⟩

end Shape

/-! ### Builders -/

namespace Builder

section

variable {L : Layout}

/-- Calls to one field. -/
theorem run_of_foldlM_apply (b : Builder L) (f : L.Field) {cs : List (L.shape f).Call}
    {next : (L.shape f).Slot}
    (h : cs.foldlM (fun slot c => (L.shape f).apply b.scope (L.key f) c slot) (b.slot f) =
      .ok next) :
    b.run (cs.map (Call.mk f)) = .ok (b.setSlot f next) := by
  induction cs generalizing b with
  | nil =>
      obtain rfl := Except.ok.inj h
      rw [setSlot_self]
      rfl
  | cons c rest ih =>
      rw [List.foldlM_cons] at h
      obtain ⟨mid, hcall, hrest⟩ := exists_of_bind_eq_ok h
      have hrun := ih (b.setSlot f mid) (by rw [slot_setSlot]; exact hrest)
      rw [setSlot_setSlot] at hrun
      rw [run, List.map_cons, List.foldlM_cons, call, hcall]
      exact hrun

/-- Accepted calls can be followed by others. -/
theorem run_append {b mid next : Builder L} {calls more : List (Call L)}
    (h : b.run calls = .ok mid) (hmore : mid.run more = .ok next) :
    b.run (calls ++ more) = .ok next := by
  unfold run at h hmore ⊢
  rw [List.foldlM_append, h]
  exact hmore

end

variable {t : EntityType} {readers : t.layout.Readers} {entries : List (String × Document)}

/-- A call that hands over only what can be made. -/
def Call.IsMade (c : Call t.layout) : Prop :=
  (t.layout.shape c.field).IsMade (t.partView c.field) c.setter

/-- A field of a builder. -/
theorem exists_calls_of_readField {f : t.layout.Field}
    (hmade : (t.layout.shape f).MadeBy (t.partView f) (readers f)) {b next : Builder t.layout}
    (h : b.readField readers entries f = .ok next) :
    ∃ calls, b.run calls = .ok next ∧ ∀ c ∈ calls, c.IsMade := by
  unfold readField at h
  split at h
  · exact ⟨[], h, nofun⟩
  · obtain ⟨slot, hslot, rfl⟩ := exists_of_map_eq_ok h
    obtain ⟨cs, hcs, hcsMade⟩ := Shape.exists_calls_of_read hmade hslot
    refine ⟨cs.map (Call.mk f), run_of_foldlM_apply b f hcs, fun c hc => ?_⟩
    obtain ⟨c', hc', rfl⟩ := List.mem_map.mp hc
    exact hcsMade c' hc'

/-- A builder that is read successfully is left by calls that hand over only what can be made. -/
theorem exists_calls_of_readFields
    (hmade : ∀ f, (t.layout.shape f).MadeBy (t.partView f) (readers f)) {b next : Builder t.layout}
    (h : b.readFields readers entries = .ok next) :
    ∃ calls, b.run calls = .ok next ∧ ∀ c ∈ calls, c.IsMade := by
  unfold readFields at h
  generalize t.layout.fields = fs at h
  induction fs generalizing b with
  | nil => exact ⟨[], h, nofun⟩
  | cons f rest ih =>
      rw [List.foldlM_cons] at h
      obtain ⟨mid, hfield, hrest⟩ := exists_of_bind_eq_ok h
      obtain ⟨calls, hrun, hcalls⟩ := exists_calls_of_readField (hmade f) hfield
      obtain ⟨more, hmore, hmoreMade⟩ := ih hrest
      refine ⟨calls ++ more, run_append hrun hmore, fun c hc => ?_⟩
      rcases List.mem_append.mp hc with hc | hc
      · exact hcalls c hc
      · exact hmoreMade c hc

end Builder

/-! ### Entities -/

/-- What is built from a mapping's entries can be made. -/
theorem Reachable.of_readFields {t : EntityType} {readers : t.layout.Readers}
    (hmade : ∀ f, (t.layout.shape f).MadeBy (t.partView f) (readers f)) {mode : BuildMode}
    {entries : List (String × Document)} {b : Builder t.layout} {r : Record t.layout}
    (hread : (Builder.new t.layout mode).readFields readers entries = .ok b)
    (hbuild : b.build = .ok r) : Reachable ⟨t, r⟩ := by
  -- a run that is not refused makes all its calls, so it is one of attempts
  obtain ⟨calls, hrun, hcalls⟩ := Builder.exists_calls_of_readFields hmade hread
  rw [← Builder.attempts_of_run hrun] at hbuild
  have hdistinct : ∀ c ∈ calls, c.Distinct := fun c hc => (hcalls c hc).1
  have hgiven : ∀ c ∈ calls, ∀ x ∈ c.given, Reachable x := fun c hc => (hcalls c hc).2
  exact Reachable.built mode calls hdistinct hgiven hbuild

namespace Entity

variable {E : Type} [Entity E]

/-- Entities are finished from builders that were read. -/
theorem exists_build_of_readEntries {readers : (layout E).Readers} {mode : BuildMode}
    {entries : List (String × Document)} {e : E} (h : readEntries readers mode entries = .ok e) :
    ∃ b, (Builder.new (layout E) mode).readFields readers entries = .ok b ∧
      b.build = .ok (toRecord e) := by
  unfold readEntries at h
  obtain ⟨b, hread, hfinish⟩ := exists_of_bind_eq_ok h
  obtain ⟨r, hbuild, rfl⟩ := exists_of_map_eq_ok hfinish
  exact ⟨b, hread, by rw [hbuild, toRecord_ofRecord]⟩

/-- An entity that is read was finished from the entries of a mapping. -/
theorem exists_build_of_read {readers : (layout E).Readers} {mode : BuildMode} {d : Document}
    {e : E} (h : read readers mode d = .ok (.ok e)) :
    ∃ entries b, (Builder.new (layout E) mode).readFields readers entries = .ok b ∧
      b.build = .ok (toRecord e) := by
  unfold read at h
  split at h
  · rename_i entries _
    obtain ⟨e', hread, he⟩ := exists_of_map_eq_ok h
    obtain rfl := Except.ok.inj he
    exact ⟨entries, exists_build_of_readEntries hread⟩
  · cases h

end Entity

/-- Bounds that are read can be made: they have no parts. -/
theorem Bounds.reachable_of_read {mode : BuildMode} {d : Document} {e : Bounds}
    (h : Bounds.read mode d = .ok (.ok e)) : Reachable ⟨.bounds, Entity.toRecord e⟩ := by
  obtain ⟨entries, b, hread, hbuild⟩ := Entity.exists_build_of_read h
  exact Reachable.of_readFields (t := .bounds) (fun f => by cases f <;> trivial) hread hbuild

/-- Ports that are read can be made: they have no parts. -/
theorem Port.reachable_of_read {mode : BuildMode} {d : Document} {e : Port}
    (h : Entity.read Port.readers mode d = .ok (.ok e)) :
    Reachable ⟨.port, Entity.toRecord e⟩ := by
  obtain ⟨entries, b, hread, hbuild⟩ := Entity.exists_build_of_read h
  exact Reachable.of_readFields (t := .port) (fun f => by cases f <;> trivial) hread hbuild

/-- Connections that are read can be made: they have no parts. -/
theorem Connection.reachable_of_read {mode : BuildMode} {d : Document} {e : Connection}
    (h : Entity.read Connection.readers mode d = .ok (.ok e)) :
    Reachable ⟨.connection, Entity.toRecord e⟩ := by
  obtain ⟨entries, b, hread, hbuild⟩ := Entity.exists_build_of_read h
  exact Reachable.of_readFields (t := .connection) (fun f => by cases f <;> trivial) hread hbuild

/-- Annotations that are read can be made, since their bounds can. -/
theorem Annotation.reachable_of_read {mode : BuildMode} {d : Document} {e : Annotation}
    (h : Entity.read Annotation.readers mode d = .ok (.ok e)) :
    Reachable ⟨EntityType.annotation, Entity.toRecord e⟩ := by
  obtain ⟨entries, b, hread, hbuild⟩ := Entity.exists_build_of_read h
  refine Reachable.of_readFields (t := EntityType.annotation) (fun f => ?_) hread hbuild
  cases f with
  | text | borderSize => trivial
  | bounds => exact fun mode d e h => Bounds.reachable_of_read h

/-! ### Configurations -/

namespace Config

/-- What stands in for a setting that cannot be read can be made: it is a placeholder. -/
theorem reachable_emptyMap : Reachable emptyMap.view := by
  refine Reachable.of_eq_placeholder .configMap ?_
  have hget : (Entity.toRecord (⟨[], .empty⟩ : ConfigMap)).get =
      (Record.placeholder ConfigMap.layout).get := by
    funext f
    cases f
    rfl
  exact congrArg (fun get => Record.mk get .empty) hget

/-- A configuration that is read from entries can be made if its children can. -/
theorem reachable_of_readEntries {child : BuildMode → Document → Reading Config}
    (hchild : ∀ mode d c, child mode d = .ok (.ok c) → Reachable c.view) {mode : BuildMode}
    {entries : List (String × Document)} {c : Config}
    (h : readEntries child mode entries = .ok (.ok c)) : Reachable c.view := by
  unfold readEntries at h
  split at h
  · obtain ⟨m, hread, hm⟩ := exists_of_map_eq_ok h
    obtain rfl := Except.ok.inj hm
    obtain ⟨b, hfields, hbuild⟩ := Entity.exists_build_of_readEntries hread
    refine Reachable.of_readFields (t := .configMap) (fun f => ?_) hfields hbuild
    cases f
    exact ⟨hchild, reachable_emptyMap⟩
  · split at h
    · obtain ⟨v, hread, hv⟩ := exists_of_map_eq_ok h
      obtain rfl := Except.ok.inj hv
      obtain ⟨b, hfields, hbuild⟩ := Entity.exists_build_of_readEntries hread
      refine Reachable.of_readFields (t := .configValue) (fun f => ?_) hfields hbuild
      cases f
      trivial
    · cases h

/-- So configurations that are read up to some depth can be made, by induction on the depth. -/
theorem reachable_of_readTo {depth : Nat} {mode : BuildMode} {d : Document} {c : Config}
    (h : readTo depth mode d = .ok (.ok c)) : Reachable c.view := by
  induction depth generalizing mode d c with
  | zero => cases h
  | succ depth ih =>
      rw [readTo] at h
      split at h
      · exact reachable_of_readEntries (fun mode d c h => ih h) h
      · cases h

end Config

/-! ### Nodes, workflows and loads -/

/-- Nodes that are read can be made, since their bounds, ports and settings can. -/
theorem Node.reachable_of_read {mode : BuildMode} {d : Document} {e : Node}
    (h : Entity.read Node.readers mode d = .ok (.ok e)) :
    Reachable ⟨.node, Entity.toRecord e⟩ := by
  obtain ⟨entries, b, hread, hbuild⟩ := Entity.exists_build_of_read h
  refine Reachable.of_readFields (t := .node) (fun f => ?_) hread hbuild
  cases f with
  | id | name | kind => trivial
  | bounds => exact fun mode d e h => Bounds.reachable_of_read h
  | inPorts | outPorts =>
      exact ⟨fun mode d e h => Port.reachable_of_read h,
        Reachable.of_eq_placeholder .port (Entity.toRecord_ofRecord (E := Port) _)⟩
  | modelSettings => exact fun mode d c h => Config.reachable_of_readTo h

/-- Workflows that are read can be made, since all their parts can. -/
theorem Workflow.reachable_of_read {mode : BuildMode} {entries : List (String × Document)}
    {w : Workflow} (h : Workflow.read mode entries = .ok w) :
    Reachable ⟨.workflow, Entity.toRecord w⟩ := by
  obtain ⟨b, hread, hbuild⟩ := Entity.exists_build_of_readEntries h
  refine Reachable.of_readFields (t := .workflow) (fun f => ?_) hread hbuild
  cases f with
  | name => trivial
  | nodes =>
      exact ⟨fun mode d e h => Node.reachable_of_read h,
        Reachable.of_eq_placeholder .node (Entity.toRecord_ofRecord (E := Node) _)⟩
  | connections =>
      exact ⟨fun mode d e h => Connection.reachable_of_read h,
        Reachable.of_eq_placeholder .connection (Entity.toRecord_ofRecord (E := Connection) _)⟩
  | annotations =>
      exact ⟨fun mode d e h => Annotation.reachable_of_read h,
        Reachable.of_eq_placeholder EntityType.annotation
          (Entity.toRecord_ofRecord (E := Annotation) _)⟩

/-- Whatever is loaded, in either mode, can be made. -/
theorem LoadOptions.reachable_of_loadDocument {o : LoadOptions} {d : Document} {l : Loaded}
    (h : o.loadDocument d = .ok l) : Reachable ⟨.workflow, Entity.toRecord l.workflow⟩ := by
  unfold loadDocument at h
  split at h
  · obtain ⟨w, hread, rfl⟩ := exists_of_map_eq_ok h
    exact Workflow.reachable_of_read hread
  · cases h

/-! ### Gaps in loaded workflows and elsewhere -/

/-- Loaded workflows are among the entities that can be made, and of no such entity is a required
field without a value and without a tree. So an entity without faults has a value in every required
field, and so has every entity below it. -/
theorem no_silent_gap :
    (∀ (o : LoadOptions) (d : Document) (l : Loaded), o.loadDocument d = .ok l →
      Reachable ⟨.workflow, Entity.toRecord l.workflow⟩) ∧
    ∀ x : AnyEntity, Reachable x →
      (∀ f, x.isVacant f = true →
        ∃ u, x.faults.field? (x.1.layout.name f) = some u ∧ u.hasFaults = true) ∧
      (x.faults.hasFaults = false → x.IsComplete ∧ ∀ y, Below y x → y.IsComplete) := by
  refine ⟨fun o d l h => LoadOptions.reachable_of_loadDocument h, fun x h => ⟨?_, h.complete⟩⟩
  intro f hvacant
  have htree := h.accounted f hvacant
  exact ⟨_, FaultTree.field?_of_subtree rfl htree, FaultTree.hasFaults_iff.mpr htree⟩

/-- Calls that give a rectangle all its numbers. -/
def unitBoundsCalls : List (Builder.Call Bounds.layout) :=
  [⟨.x, .set 0⟩, ⟨.y, .set 0⟩, ⟨.width, .set 1⟩, ⟨.height, .set 1⟩]

/-- A workflow that is loaded with faults, a node about which nothing is known, and a rectangle
without faults. -/
theorem no_silent_gap_nestedFault :
    (∃ l, LoadOptions.loadDocument ⟨"flow", .tolerant⟩ (.mapping LoadOptions.nestedFault) = .ok l ∧
      Reachable ⟨.workflow, Entity.toRecord l.workflow⟩) ∧
    (∃ u, (Record.placeholder Node.layout).faults.field? "id" = some u ∧ u.hasFaults = true) ∧
    ∃ r, ((Builder.new Bounds.layout .tolerant).attempts unitBoundsCalls).build = .ok r ∧
      AnyEntity.IsComplete ⟨.bounds, r⟩ := by
  refine ⟨?_, ?_, ?_⟩
  · obtain ⟨w, -, hload⟩ := LoadOptions.loadDocument_tolerant "flow" LoadOptions.nestedFault
    exact ⟨_, hload, no_silent_gap.1 _ _ _ hload⟩
  · exact (no_silent_gap.2 _ (Reachable.placeholder .node)).1 .id rfl
  · refine ⟨_, Builder.build_tolerant rfl, ((no_silent_gap.2 _ ?_).2 rfl).1⟩
    refine Reachable.built (t := .bounds) .tolerant unitBoundsCalls (fun c hc => ?_)
      (fun c hc x hx => ?_) (Builder.build_tolerant rfl)
    · simp only [unitBoundsCalls, List.mem_cons, List.not_mem_nil, or_false] at hc
      rcases hc with rfl | rfl | rfl | rfl <;> trivial
    · simp only [unitBoundsCalls, List.mem_cons, List.not_mem_nil, or_false] at hc
      rcases hc with rfl | rfl | rfl | rfl <;> cases hx

end Flowsheet
