import Flowsheet.Proofs.Reading.Strict
import Flowsheet.Proofs.Reading.Values

/-!
# Clean loads are those of documents with the right layout

A tolerant load reports nothing if and only if the document is a workflow in the sense of
`Document.IsWorkflow` (`LoadOptions.clean_load_iff_isWorkflow`).

The argument goes up from fields to workflows. `ReadsClean` says of a document that a part is read
from it without a fault. For one field, `Shape.Accepts` says what its entry has to be
(`Shape.faults_loaded_eq_empty_iff`); for one entity, all fields that have to be there are there,
and all entries are accepted (`Layout.faults_loadedRecord_eq_empty_iff`). The two directions are
never separated, since a tree is empty just if the trees that it is merged from are. Configurations
are done by induction on the depth of the document.
-/

namespace Flowsheet

open Document FaultTree

/-! ### One field -/

/-- A part is read from the document, without a fault. -/
def ReadsClean {α : Type} [HasFaults α] (read : BuildMode → Document → Reading α)
    (d : Document) : Prop :=
  ∃ a, tolerantly read d = .ok a ∧ HasFaults.faults a = .empty

/-- A part in a list or map has no fault just if it is read without one; a fallback is marked. -/
theorem ItemReader.faults_part_eq_empty_iff {α : Type} [HasFaults α] (reader : ItemReader α)
    (d : Document) : HasFaults.faults (reader.part d) = .empty ↔ ReadsClean reader.read d := by
  unfold ItemReader.part ReadsClean
  cases tolerantly reader.read d with
  | ok a => simp
  | error e =>
      have hmark : HasFaults.faults (HasFaults.mark ⟨.field e⟩ reader.fallback) ≠ .empty := by
        rw [HasFaults.faults_mark, ← hasFaults_iff]
        exact hasFaults_inject _ _
      simp [hmark]

/-- An element of a list has no fault just if it is read. -/
theorem ItemReader.elementFaults_eq_empty_iff {α : Type} (reader : ItemReader α) (d : Document) :
    ListSlot.elementFaults (reader.element d) = .empty ↔
      ∃ a, tolerantly reader.read d = .ok a := by
  unfold ItemReader.element ListSlot.elementFaults
  cases tolerantly reader.read d with
  | ok a => simp
  | error e => simp

namespace Shape

/-- What the entry of a field has to be for the field to have no fault. -/
def Accepts : (s : Shape) → s.Reader → Document → Prop
  | required _, reader, d | optional _, reader, d => ∃ v, reader d = .ok v
  | @requiredPart _ _, reader, d | @optionalPart _ _, reader, d => ReadsClean reader d
  | list _, reader, d => d.SequenceOf fun x => ∃ v, tolerantly reader.read x = .ok v
  | @parts _ _, reader, d => d.SequenceOf (ReadsClean reader.read)
  | @namedParts _ _, reader, d => d.MappingOf (ReadsClean reader.read)

/-- A field that is read from its entry has no fault just if it accepts the entry. In a list or map
every member counts, and a whole that cannot be read is a fault. -/
theorem faults_loaded_eq_empty_iff (s : Shape) (reader : s.Reader) {d : Document}
    (hd : d.WellFormed) : s.faults (s.loaded reader d) = .empty ↔ s.Accepts reader d := by
  cases s with
  | required _ | optional _ =>
      simp only [loaded, Accepts]
      cases reader d with
      | ok v => simp [faults, Slot.assigned]
      | error e => simp [faults, Slot.fallenBack]
  | requiredPart _ | optionalPart _ =>
      simp only [loaded, Accepts, ReadsClean]
      cases tolerantly reader d with
      | ok a => simp [faults, Slot.assignedPart]
      | error e => simp [faults, Slot.fallenBackPart, inject, ofParts]
  -- a merged tree is empty just if all trees given to it are, so the members count one by one
  | list _ =>
      cases d with
      | sequence items =>
          refine (congrArg (· = FaultTree.empty) (faults_elements _)).to_iff.trans ?_
          rw [List.map_map, merge_indexed_eq_empty_iff]
          exact forall₂_congr fun x _ => reader.elementFaults_eq_empty_iff x
      | null | bool _ | integer _ | float _ | string _ | mapping _ =>
          exact ⟨fun h => FaultTree.noConfusion h, False.elim⟩
  | parts _ =>
      cases d with
      | sequence items =>
          refine (congrArg (· = FaultTree.empty) (faults_parts reader.part items)).to_iff.trans ?_
          rw [merge_indexed_eq_empty_iff]
          exact forall₂_congr fun x _ => reader.faults_part_eq_empty_iff x
      | null | bool _ | integer _ | float _ | string _ | mapping _ =>
          exact ⟨fun h => FaultTree.noConfusion h, False.elim⟩
  | namedParts _ =>
      cases d with
      | mapping entries =>
          have hkeys := (wellFormed_mapping.mp hd).1
          refine (congrArg (· = FaultTree.empty)
            (faults_namedParts reader.part hkeys)).to_iff.trans ?_
          rw [merge_eq_empty_iff (nodup_keys_named hkeys _), List.forall_mem_map]
          simp only [true_and]
          exact forall₂_congr fun e _ => reader.faults_part_eq_empty_iff e.2
      | null | bool _ | integer _ | float _ | string _ | sequence _ =>
          exact ⟨fun h => FaultTree.noConfusion h, False.elim⟩

end Shape

/-! ### One entity -/

namespace Layout

variable {L : Layout} (readers : L.Readers)

/-- All entries of fields are of the given kinds, and those of required fields are there. -/
def Conforms (L : Layout) (kinds : L.Field → Document → Prop)
    (entries : List (String × Document)) : Prop :=
  ∀ f, if (L.shape f).isRequired then Needs (kinds f) (L.name f) entries
    else Allows (kinds f) (L.name f) entries

/-- An entity has no fault just if none of its fields has one. -/
theorem faults_loadedRecord_eq_empty (entries : List (String × Document)) :
    (loadedRecord readers entries).faults = .empty ↔ ∀ f, (L.shape f).faults
      ((L.shape f).settled (L.key f) (Builder.loadedSlot readers entries f)) = .empty := by
  refine (merge_eq_empty_iff (L.nodup_keys_fieldTrees _)).trans ?_
  constructor
  · intro h f
    exact h.2 _ (L.mem_fieldTrees _ f)
  · intro h
    refine ⟨rfl, fun c hc => ?_⟩
    obtain ⟨f, -, rfl⟩ := List.mem_map.mp hc
    exact h f

/-- A field without an entry, or with one that is null, has no fault just if it is not required. -/
theorem faults_of_present?_eq_none {entries : List (String × Document)} {f : L.Field}
    (h : present? (L.name f) entries = none) :
    (L.shape f).faults ((L.shape f).settled (L.key f) (Builder.loadedSlot readers entries f)) =
      .empty ↔ (L.shape f).isRequired = false := by
  unfold Builder.loadedSlot
  rw [h]
  simp only []
  rw [Shape.faults_settled_unset]
  cases (L.shape f).isRequired <;> simp

/-- A field with an entry has no fault just if the entry is accepted. -/
theorem faults_of_present?_eq_some {entries : List (String × Document)} {f : L.Field}
    {d : Document} (h : present? (L.name f) entries = some d) (hd : d.WellFormed) :
    (L.shape f).faults ((L.shape f).settled (L.key f) (Builder.loadedSlot readers entries f)) =
      .empty ↔ (L.shape f).Accepts (readers f) d := by
  unfold Builder.loadedSlot
  rw [h]
  simp only []
  rw [Shape.settled_of_not_isMissing _ (Shape.isMissing_loaded _ _ _)]
  exact Shape.faults_loaded_eq_empty_iff _ _ hd

variable {readers}

/-- An entity has no fault just if its entries conform to the kinds that its readers accept. -/
theorem faults_loadedRecord_eq_empty_iff (kinds : L.Field → Document → Prop)
    {entries : List (String × Document)} (hentries : (mapping entries).WellFormed)
    (hnull : ∀ f, (L.shape f).isRequired = true → ¬ kinds f .null)
    (haccepts : ∀ f d, (L.name f, d) ∈ entries →
      ((L.shape f).Accepts (readers f) d ↔ kinds f d)) :
    (loadedRecord readers entries).faults = .empty ↔ L.Conforms kinds entries := by
  rw [faults_loadedRecord_eq_empty]
  refine forall_congr' fun f => ?_
  cases hget : Assoc.get? (L.name f) entries with
  | none =>
      have hpresent : present? (L.name f) entries = none := by simp [present?, hget]
      rw [faults_of_present?_eq_none readers hpresent]
      cases (L.shape f).isRequired <;> simp [Needs, Allows, hget]
  | some d =>
      have hmem := Assoc.mem_of_get?_eq_some hget
      cases hd : d.isNull with
      | true =>
          -- a null counts as no entry here, and the kinds of required fields do not include it
          obtain rfl := Document.isNull_iff.mp hd
          have hpresent : present? (L.name f) entries = none := by simp [present?, hget, isNull]
          rw [faults_of_present?_eq_none readers hpresent]
          cases hrequired : (L.shape f).isRequired with
          | true => simp [Needs, hget, hnull f hrequired]
          | false => simp [Allows, hget]
      | false =>
          have hdnull : d ≠ .null := by
            rintro rfl
            cases hd
          have hpresent : present? (L.name f) entries = some d := by simp [present?, hget, hd]
          have hwf := (wellFormed_mapping.mp hentries).2 _ hmem
          rw [faults_of_present?_eq_some readers hpresent hwf, haccepts f d hmem]
          cases (L.shape f).isRequired with
          | true => simp [Needs, hget]
          | false => simp [Allows, hget, hdnull]

end Layout

/-- An entity is read without a fault from mappings whose entries leave its tree empty. -/
theorem Entity.readsClean_iff {E : Type} [Entity E] {readers : (Entity.layout E).Readers}
    (h : readers.Tolerate) (d : Document) :
    ReadsClean (Entity.read readers : BuildMode → Document → Reading E) d ↔
      d.MappingWith fun entries => (Layout.loadedRecord readers entries).faults = .empty := by
  unfold ReadsClean
  rw [Entity.tolerantly_read h]
  cases d with
  | mapping entries =>
      constructor
      · rintro ⟨e, he, hfaults⟩
        obtain rfl := Except.ok.inj he
        rwa [Entity.faults_ofRecord] at hfaults
      · intro hfaults
        exact ⟨_, rfl, (Entity.faults_ofRecord _).trans hfaults⟩
  | null | bool _ | integer _ | float _ | string _ | sequence _ =>
      constructor
      · rintro ⟨e, he, -⟩
        cases he
      · exact False.elim

/-- An entity is read without a fault from mappings with entries of the right kinds. -/
theorem Entity.readsClean_iff_mappingWith {E : Type} [Entity E]
    {readers : (Entity.layout E).Readers} (h : readers.Tolerate)
    (kinds : (Entity.layout E).Field → Document → Prop)
    {P : List (String × Document) → Prop}
    (hnull : ∀ f, ((Entity.layout E).shape f).isRequired = true → ¬ kinds f .null)
    (haccepts : ∀ f d, d.WellFormed →
      (((Entity.layout E).shape f).Accepts (readers f) d ↔ kinds f d))
    (hconforms : ∀ entries, (Entity.layout E).Conforms kinds entries ↔ P entries)
    {d : Document} (hd : d.WellFormed) :
    ReadsClean (Entity.read readers : BuildMode → Document → Reading E) d ↔ d.MappingWith P := by
  rw [Entity.readsClean_iff h]
  refine mappingWith_congr fun entries hentries => ?_
  subst hentries
  have hmembers := (wellFormed_mapping.mp hd).2
  exact (Layout.faults_loadedRecord_eq_empty_iff kinds hd hnull fun f x hx =>
    haccepts f x (hmembers _ hx)).trans (hconforms entries)

/-! ### Entities without nesting of their own -/

namespace Bounds

/-- The kinds of the entries of a rectangle. -/
def kinds : Field → Document → Prop
  | .x | .y | .width | .height => IsInt32

/-- Entries conform to the layout of bounds just if they have its four numbers. -/
theorem conforms_iff (entries : List (String × Document)) :
    layout.Conforms kinds entries ↔ BoundsEntries entries := by
  constructor
  · intro h
    exact ⟨h .x, h .y, h .width, h .height⟩
  · intro h f
    cases f with
    | x => exact h.x
    | y => exact h.y
    | width => exact h.width
    | height => exact h.height

/-- Bounds are read without a fault just if the document is one of bounds. -/
theorem readsClean_iff {d : Document} (hd : d.WellFormed) :
    ReadsClean Bounds.read d ↔ d.IsBounds := by
  refine Entity.readsClean_iff_mappingWith readers_tolerate kinds ?_ ?_ conforms_iff hd
  · intro f _
    cases f <;> exact id
  · intro f x _
    cases f <;> exact asInt32_iff x

end Bounds

namespace Port

/-- The kinds of the entries of a port. -/
def kinds : Field → Document → Prop
  | .index => IsUInt32
  | .portType => IsPortType
  | .name => IsString

/-- Entries conform to the layout of ports just if they have a place and a type, and a name if
any. -/
theorem conforms_iff (entries : List (String × Document)) :
    layout.Conforms kinds entries ↔ PortEntries entries := by
  constructor
  · intro h
    exact ⟨h .index, h .portType, h .name⟩
  · intro h f
    cases f with
    | index => exact h.index
    | portType => exact h.portType
    | name => exact h.name

/-- A port is read without a fault just if the document is one of a port. -/
theorem readsClean_iff {d : Document} (hd : d.WellFormed) :
    ReadsClean reader.read d ↔ d.IsPort := by
  refine Entity.readsClean_iff_mappingWith readers_tolerate kinds ?_ ?_ conforms_iff hd
  · intro f _
    cases f <;> exact id
  · intro f x _
    cases f with
    | index => exact asUInt32_iff x
    | portType => exact asPortType_iff x
    | name => exact asString_iff x

end Port

namespace Connection

/-- The kinds of the entries of a connection. -/
def kinds : Field → Document → Prop
  | .sourceId | .destId => IsInt32
  | .sourcePort | .destPort => IsUInt32
  | .deletable => IsBool
  | .bendPoints => SequenceOf IsPoint

/-- Entries conform to the layout of connections just if they have two ends and, if any, a mark and
bend points. -/
theorem conforms_iff (entries : List (String × Document)) :
    layout.Conforms kinds entries ↔ ConnectionEntries entries := by
  constructor
  · intro h
    exact ⟨h .sourceId, h .sourcePort, h .destId, h .destPort, h .deletable, h .bendPoints⟩
  · intro h f
    cases f with
    | sourceId => exact h.sourceId
    | sourcePort => exact h.sourcePort
    | destId => exact h.destId
    | destPort => exact h.destPort
    | deletable => exact h.deletable
    | bendPoints => exact h.bendPoints

/-- A connection is read without a fault just if the document is one of a connection. -/
theorem readsClean_iff {d : Document} (hd : d.WellFormed) :
    ReadsClean reader.read d ↔ d.IsConnection := by
  refine Entity.readsClean_iff_mappingWith readers_tolerate kinds ?_ ?_ conforms_iff hd
  · intro f _
    cases f <;> exact id
  · intro f x hx
    cases f with
    | sourceId | destId => exact asInt32_iff x
    | sourcePort | destPort => exact asUInt32_iff x
    | deletable => exact asBool_iff x
    | bendPoints => exact sequenceOf_congr hx fun point _ => asCoordinate_iff point

end Connection

namespace Annotation

/-- The kinds of the entries of an annotation. -/
def kinds : Field → Document → Prop
  | .text => IsString
  | .bounds => IsBounds
  | .borderSize => IsInt32

/-- Entries conform to the layout of annotations just if they have what an annotation needs. -/
theorem conforms_iff (entries : List (String × Document)) :
    layout.Conforms kinds entries ↔ AnnotationEntries entries := by
  constructor
  · intro h
    exact ⟨h .text, h .bounds, h .borderSize⟩
  · intro h f
    cases f with
    | text => exact h.text
    | bounds => exact h.bounds
    | borderSize => exact h.borderSize

/-- An annotation is read without a fault just if the document is one of an annotation. -/
theorem readsClean_iff {d : Document} (hd : d.WellFormed) :
    ReadsClean reader.read d ↔ d.IsAnnotation := by
  refine Entity.readsClean_iff_mappingWith readers_tolerate kinds ?_ ?_ conforms_iff hd
  · intro f _
    cases f <;> exact id
  · intro f x hx
    cases f with
    | text => exact asString_iff x
    | bounds => exact Bounds.readsClean_iff hx
    | borderSize => exact asInt32_iff x

end Annotation

/-! ### Configurations -/

namespace Config

variable {entries : List (String × Document)}

/-- A map is read without a fault just if its children, if not null, are read without a fault. -/
theorem map_faults_eq_empty_iff (hentries : (mapping entries).WellFormed) :
    (Layout.loadedRecord (ConfigMap.readers read) entries).faults = .empty ↔
      Allows (MappingOf (ReadsClean read)) "children" entries := by
  refine (Layout.faults_loadedRecord_eq_empty_iff (L := ConfigMap.layout)
    (fun _ => MappingOf (ReadsClean read)) hentries ?_ ?_).trans ?_
  · intro f _
    exact id
  · intro f x _
    cases f
    exact Iff.rfl
  · constructor
    · intro h
      exact h .children
    · intro h f
      cases f
      exact h

/-- A plain setting has no fault just if there is a scalar for it. -/
theorem value_faults_eq_empty_iff (hentries : (mapping entries).WellFormed) :
    (Layout.loadedRecord ConfigValue.readers entries).faults = .empty ↔
      Needs IsScalar "value" entries := by
  refine (Layout.faults_loadedRecord_eq_empty_iff (L := ConfigValue.layout)
    (fun _ => IsScalar) hentries ?_ ?_).trans ?_
  · intro f _
    exact id
  · intro f x _
    cases f
    exact asScalar_iff x
  · constructor
    · intro h
      exact h .value
    · intro h f
      cases f
      exact h

/-- Which mappings are read as a configuration without a fault. -/
theorem readsClean_mapping_iff (hentries : (mapping entries).WellFormed) :
    ReadsClean read (mapping entries) ↔
      match Assoc.get? "children" entries with
      | some d => d = .null ∨ d.MappingOf (ReadsClean read)
      | none => Needs IsScalar "value" entries := by
  have hread : ReadsClean read (mapping entries) ↔
      ∃ c, loadedEntries read entries = .ok c ∧ HasFaults.faults c = .empty := by
    rw [ReadsClean, tolerantly_read]
    rfl
  have hmap := map_faults_eq_empty_iff hentries
  have hvalue := value_faults_eq_empty_iff hentries
  rw [hread]
  unfold loadedEntries Assoc.contains
  cases hchildren : Assoc.get? "children" entries with
  | some d =>
      simp only [Option.isSome_some, if_true, Except.ok.injEq, exists_eq_left']
      refine hmap.trans ?_
      unfold Allows
      rw [hchildren]
      simp
  | none =>
      simp only [Option.isSome_none, Bool.false_eq_true, if_false]
      cases hget : Assoc.get? "value" entries with
      | some d =>
          simp only [Option.isSome_some, if_true, Except.ok.injEq, exists_eq_left']
          exact hvalue
      | none => simp [Needs, hget]

/-- Configurations of any depth. -/
theorem readsClean_iff {d : Document} (hd : d.WellFormed) : ReadsClean read d ↔ d.IsConfig := by
  induction hdepth : d.depth using Nat.strongRecOn generalizing d with
  | ind n ih =>
      cases d with
      | mapping entries =>
          rw [readsClean_mapping_iff hd, isConfig_mapping_iff]
          cases hget : Assoc.get? "children" entries with
          | none => exact Iff.rfl
          | some children =>
              have hmem := Assoc.mem_of_get?_eq_some hget
              have hchildren := (wellFormed_mapping.mp hd).2 _ hmem
              have hlt := depth_le_depthEntries hmem
              refine or_congr_right (mappingOf_congr ?_)
              -- each child stands two levels below the mapping
              rintro below rfl e he
              have hle := depth_le_depthEntries he
              simp only [depth] at hlt hdepth
              exact ih _ (by omega) ((wellFormed_mapping.mp hchildren).2 e he) rfl
      | null | bool _ | integer _ | float _ | string _ | sequence _ =>
          constructor
          · rintro ⟨a, ha, -⟩
            cases ha
          · intro h
            cases h

end Config

/-! ### Nodes and workflows -/

namespace Node

/-- The kinds of the entries of a node. -/
def kinds : Field → Document → Prop
  | .id => IsInt32
  | .name => IsString
  | .kind => IsNodeKind
  | .bounds => IsBounds
  | .inPorts | .outPorts => SequenceOf IsPort
  | .modelSettings => IsConfig

/-- Entries conform to the layout of nodes just if they have what a node needs, and else only what
it may have. -/
theorem conforms_iff (entries : List (String × Document)) :
    layout.Conforms kinds entries ↔ NodeEntries entries := by
  constructor
  · intro h
    exact ⟨h .id, h .name, h .kind, h .bounds, h .inPorts, h .outPorts, h .modelSettings⟩
  · intro h f
    cases f with
    | id => exact h.id
    | name => exact h.name
    | kind => exact h.kind
    | bounds => exact h.bounds
    | inPorts => exact h.inPorts
    | outPorts => exact h.outPorts
    | modelSettings => exact h.modelSettings

/-- A node is read without a fault just if the document is one of a node. -/
theorem readsClean_iff {d : Document} (hd : d.WellFormed) :
    ReadsClean reader.read d ↔ d.IsNode := by
  refine Entity.readsClean_iff_mappingWith readers_tolerate kinds ?_ ?_ conforms_iff hd
  · intro f hrequired
    cases f with
    | id | name => exact fun h => h
    | kind => rintro (h | h | h) <;> cases h
    | bounds | inPorts | outPorts | modelSettings => cases hrequired
  · intro f x hx
    cases f with
    | id => exact asInt32_iff x
    | name => exact asString_iff x
    | kind => exact asNodeKind_iff x
    | bounds => exact Bounds.readsClean_iff hx
    | inPorts | outPorts => exact sequenceOf_congr hx fun port hport => Port.readsClean_iff hport
    | modelSettings => exact Config.readsClean_iff hx

end Node

namespace Workflow

/-- The kinds of the entries of a workflow. -/
def kinds : Field → Document → Prop
  | .name => IsString
  | .nodes => MappingOf IsNode
  | .connections => SequenceOf IsConnection
  | .annotations => SequenceOf IsAnnotation

/-- Entries conform to the layout of workflows just if they have what a workflow may have; it needs
nothing. -/
theorem conforms_iff (entries : List (String × Document)) :
    layout.Conforms kinds entries ↔ WorkflowEntries entries := by
  constructor
  · intro h
    exact ⟨h .name, h .nodes, h .connections, h .annotations⟩
  · intro h f
    cases f with
    | name => exact h.name
    | nodes => exact h.nodes
    | connections => exact h.connections
    | annotations => exact h.annotations

/-- A workflow has no fault just if its entries are of the right kinds. -/
theorem faults_eq_empty_iff {entries : List (String × Document)}
    (hentries : (mapping entries).WellFormed) :
    (Layout.loadedRecord readers entries).faults = .empty ↔ WorkflowEntries entries := by
  refine (Layout.faults_loadedRecord_eq_empty_iff (L := layout) kinds hentries ?_ ?_).trans
    (conforms_iff entries)
  · intro f hrequired
    cases f <;> cases hrequired
  · intro f x hx
    have hwf := (wellFormed_mapping.mp hentries).2 _ hx
    cases f with
    | name => exact asString_iff x
    | nodes =>
        refine mappingOf_congr ?_
        rintro below rfl e he
        exact Node.readsClean_iff ((wellFormed_mapping.mp hwf).2 e he)
    | connections => exact sequenceOf_congr hwf fun y hy => Connection.readsClean_iff hy
    | annotations => exact sequenceOf_congr hwf fun y hy => Annotation.readsClean_iff hy

end Workflow

namespace LoadOptions

/-- A tolerant load succeeds and reports nothing if and only if the document is a workflow. -/
theorem clean_load_iff_isWorkflow (source : String) {d : Document} (h : d.WellFormed) :
    (∃ l, loadDocument ⟨source, .tolerant⟩ d = .ok l ∧ l.diagnostics = []) ↔ d.IsWorkflow := by
  cases d with
  | mapping entries =>
      have hread := Workflow.read_tolerant entries
      obtain ⟨w, hw, hload⟩ := loadDocument_tolerant source entries
      have hfaults : w.faults = (Layout.loadedRecord Workflow.readers entries).faults := by
        rw [hread] at hw
        rw [← Except.ok.inj hw]
        rfl
      have hclean := diagnostics_eq_nil_iff source h hload
      rw [hload]
      constructor
      · rintro ⟨l, hl, hnil⟩
        obtain rfl := Except.ok.inj hl
        exact (Workflow.faults_eq_empty_iff h).mp (hfaults ▸ hclean.mp hnil)
      · intro hworkflow
        have hempty := (Workflow.faults_eq_empty_iff h).mpr hworkflow
        exact ⟨_, rfl, hclean.mpr (hfaults.trans hempty)⟩
  | null | bool _ | integer _ | float _ | string _ | sequence _ =>
      constructor
      · rintro ⟨l, hl, -⟩
        cases hl
      · exact False.elim

/-- A port, as a document. -/
def tidyPort : Document := .mapping [("index", .integer 0), ("port_type", .string "core.Table")]

/-- Nested settings, as a document. -/
def tidySettings : Document :=
  .mapping [("children", .mapping [("k", .mapping [("value", .bool true)])])]

/-- A node with this port and these settings, as a document. -/
def tidyNode : Document :=
  .mapping
    [("id", .integer 1), ("name", .string "Reader"), ("kind", .string "NATIVENODE"),
      ("out_ports", .sequence [tidyPort]), ("model_settings", tidySettings)]

/-- A connection with both forms of bend points, as a document. -/
def tidyConnection : Document :=
  .mapping
    [("source_id", .integer 1), ("source_port", .integer 0), ("dest_id", .integer 1),
      ("dest_port", .integer 0), ("bend_points", .sequence
        [.sequence [.integer 0, .integer 5], .mapping [("x", .integer 5), ("y", .integer 0)]])]

/-- A workflow with this node and this connection. -/
def tidyFlow : Document :=
  .mapping
    [("nodes", .mapping [("n", tidyNode)]), ("connections", .sequence [tidyConnection]),
      ("annotations", .null)]

/-- No mapping in this workflow has a key twice. -/
theorem wellFormed_tidyFlow : tidyFlow.WellFormed := by
  simp [tidyFlow, tidyNode, tidyPort, tidySettings, tidyConnection, Document.WellFormed,
    Document.WellFormedEntries, Document.WellFormedItems, Assoc.keys]

/-- The workflow has the right layout. -/
theorem isWorkflow_tidyFlow : tidyFlow.IsWorkflow := by
  have hport : tidyPort.IsPort := by
    refine ⟨?_, ?_, ?_⟩
    · simp [Needs, Assoc.get?, IsUInt32]
    · refine ⟨_, rfl, ?_⟩
      show ∀ segment ∈ PortType.segments "core.Table", _
      decide
    · simp [Allows, Assoc.get?]
  have hsettings : tidySettings.IsConfig := by
    refine .children rfl fun e he => ?_
    obtain rfl := List.mem_singleton.mp he
    exact .value rfl ⟨_, rfl, trivial⟩
  have hnode : tidyNode.IsNode := by
    constructor <;> simp [Needs, Allows, Assoc.get?, IsInt32, IsString, IsNodeKind, SequenceOf,
      hport, hsettings]
  have hconnection : tidyConnection.IsConnection := by
    constructor <;> simp [Needs, Allows, Assoc.get?, IsInt32, IsUInt32, SequenceOf, IsPoint]
  constructor <;> simp [Allows, Assoc.get?, MappingOf, SequenceOf, hnode, hconnection]

/-- A workflow that loads cleanly, and one that does not and so is none. -/
theorem clean_load_iff_isWorkflow_tidyFlow :
    (tidyFlow.WellFormed ∧ tidyFlow.IsWorkflow ∧
      ∃ l, loadDocument ⟨"flow", .tolerant⟩ tidyFlow = .ok l ∧ l.diagnostics = []) ∧
    (mapping nestedFault).WellFormed ∧ ¬ (mapping nestedFault).IsWorkflow := by
  refine ⟨⟨wellFormed_tidyFlow, isWorkflow_tidyFlow, ?_⟩, wellFormed_nestedFault, ?_⟩
  · exact (clean_load_iff_isWorkflow "flow" wellFormed_tidyFlow).mpr isWorkflow_tidyFlow
  · intro hworkflow
    obtain ⟨l, hl, hnil⟩ := (clean_load_iff_isWorkflow "w" wellFormed_nestedFault).mpr hworkflow
    obtain rfl := Except.ok.inj hl
    exact List.cons_ne_nil _ _ hnil

end LoadOptions

end Flowsheet
