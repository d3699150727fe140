import Flowsheet.Proofs.Reading.Isolation
import Flowsheet.Proofs.Views

/-!
# Mappings that are read as entities

Which mappings inside a document are read as entities, as entities of which type, and where the
entities stand. A mapping is of a type by the field it is found in, except that a configuration is a
map or a value by its entries (`EntityType.partType?`). `StandsAt` follows single parts, elements of
lists and entries of maps down to such a mapping, and `StandsAt.entity_at` says that what is loaded
has there just what is read from that mapping alone.

The elements of lists and the entries of maps are treated alike: `Shape.items?` gives the members of
a document under their keys, and `elements_loaded` and `faults_loaded` say what becomes of them.
-/

namespace Flowsheet

open EntityType Spot

/-! ### Members of lists and maps -/

namespace Shape

/-- Whether the field is a list or a map. -/
def IsCollection : Shape → Prop
  | list _ | @parts _ _ | @namedParts _ _ => True
  | required _ | optional _ | @requiredPart _ _ | @optionalPart _ _ => False

/-- What the members of a list or map are. -/
@[reducible] def Item : Shape → Type
  | list α | @parts α _ | @namedParts α _ => α
  | required _ | optional _ | @requiredPart _ _ | @optionalPart _ _ => Unit

/-- The shape of the document that a list or map is read from. -/
def wanted : Shape → String
  | list _ | @parts _ _ => "sequence"
  | @namedParts _ _ => "mapping"
  | required _ | optional _ | @requiredPart _ _ | @optionalPart _ _ => ""

/-- The members of a document that is a sequence or a mapping, as the field wants it, under the keys
that they have in paths. -/
def items? : Shape → Document → Option (List (FaultKey × Document))
  | list _, d | @parts _ _, d =>
    d.items?.map fun items => items.zipIdx.map fun e => (.index e.2, e.1)
  | @namedParts _ _, d => d.entries?.map fun entries => entries.map fun e => (.key e.1, e.2)
  | required _, _ | optional _, _ | @requiredPart _ _, _ | @optionalPart _ _, _ => none

/-- The members of a field under the keys that they have in paths. -/
def elements : (s : Shape) → s.Content → List (FaultKey × s.Item)
  | list _, c | @parts _ _, c => c.zipIdx.map fun e => (.index e.2, e.1)
  | @namedParts _ _, c => c.map fun e => (.key e.1, e.2)
  | required _, _ | optional _, _ | @requiredPart _ _, _ | @optionalPart _ _, _ => []

/-- What one member is read as. -/
def readItem : (s : Shape) → s.Reader → Document → s.Item
  | list _, reader, d => (reader.element d).1
  | @parts _ _, reader, d | @namedParts _ _, reader, d => reader.part d
  | required _, _, _ | optional _, _, _ | @requiredPart _ _, _, _ | @optionalPart _ _, _, _ => ()

/-- The tree of one member. -/
def itemFaults : (s : Shape) → s.Reader → Document → FaultTree
  | list _, reader, d => ListSlot.elementFaults (reader.element d)
  | @parts _ _, reader, d | @namedParts _ _, reader, d => HasFaults.faults (reader.part d)
  | required _, _, _ | optional _, _, _ | @requiredPart _ _, _, _ | @optionalPart _ _, _, _ =>
    .empty

section

variable {s : Shape} {d : Document} {items : List (FaultKey × Document)}

/-- Only sequences and mappings have members. -/
theorem items?_cases (h : s.items? d = some items) :
    (∃ ds, d = .sequence ds ∧ items = ds.zipIdx.map fun e => (.index e.2, e.1)) ∨
      ∃ entries, d = .mapping entries ∧ items = entries.map fun e => (.key e.1, e.2) := by
  cases s with
  | required | optional | requiredPart | optionalPart => cases h
  | list | parts =>
      cases d with
      | sequence ds => exact Or.inl ⟨ds, rfl, (Option.some.inj h).symm⟩
      | null | bool | integer | float | string | mapping => cases h
  | namedParts =>
      cases d with
      | mapping entries => exact Or.inr ⟨entries, rfl, (Option.some.inj h).symm⟩
      | null | bool | integer | float | string | sequence => cases h

/-- The keys of items in a row are their places. -/
theorem keys_zipIdx {ι : Type} (xs : List ι) :
    Assoc.keys (xs.zipIdx.map fun e => (FaultKey.index e.2, e.1)) =
      (List.range' 0 xs.length).map .index := by
  rw [Assoc.keys_map, ← List.zipIdx_map_snd, List.map_map]
  rfl

/-- No two items stand at one place. -/
theorem nodup_keys_zipIdx {ι : Type} (xs : List ι) :
    (Assoc.keys (xs.zipIdx.map fun e => (FaultKey.index e.2, e.1))).Nodup := by
  rw [keys_zipIdx]
  exact List.Pairwise.map _ (fun i j h heq => h (FaultKey.index.inj heq)) List.nodup_range'

/-- No two members of a list or map stand under one key. -/
theorem nodup_keys_items (hd : d.WellFormed) (h : s.items? d = some items) :
    (Assoc.keys items).Nodup := by
  rcases items?_cases h with ⟨ds, rfl, rfl⟩ | ⟨entries, rfl, rfl⟩
  · exact nodup_keys_zipIdx ds
  · exact FaultTree.nodup_keys_named (Document.wellFormed_mapping.mp hd).1 Prod.snd

/-- The members of a well-formed list or map are well-formed. -/
theorem wellFormed_of_mem_items (hd : d.WellFormed) (h : s.items? d = some items)
    {item : FaultKey × Document} (hitem : item ∈ items) : item.2.WellFormed := by
  rcases items?_cases h with ⟨ds, rfl, rfl⟩ | ⟨entries, rfl, rfl⟩
  · obtain ⟨e, he, rfl⟩ := List.mem_map.mp hitem
    exact Document.wellFormed_sequence.mp hd e.1 (List.fst_mem_of_mem_zipIdx he)
  · obtain ⟨e, he, rfl⟩ := List.mem_map.mp hitem
    exact (Document.wellFormed_mapping.mp hd).2 e he

/-- A document of another shape is read as no members and one fault. -/
theorem loaded_of_items?_eq_none (reader : s.Reader) (hs : s.IsCollection) (h : s.items? d = none) :
    s.elements (s.content (s.loaded reader d)) = [] ∧
      s.faults (s.loaded reader d) = .node (some ⟨.field (d.mismatch s.wanted)⟩) [] := by
  cases s with
  | required | optional | requiredPart | optionalPart => cases hs
  | list | parts =>
      cases d with
      | sequence => cases h
      | null | bool | integer | float | string | mapping => exact ⟨rfl, rfl⟩
  | namedParts =>
      cases d with
      | mapping => cases h
      | null | bool | integer | float | string | sequence => exact ⟨rfl, rfl⟩

/-- Every member becomes one member, under its key and in its place. -/
theorem elements_loaded (reader : s.Reader) (hd : d.WellFormed) (h : s.items? d = some items) :
    s.elements (s.content (s.loaded reader d)) =
      items.map fun item => (item.1, s.readItem reader item.2) := by
  cases s with
  | required | optional | requiredPart | optionalPart => cases h
  | list α =>
      cases d with
      | null | bool | integer | float | string | mapping => cases h
      | sequence ds =>
          cases h
          rw [content_loaded_list, elements, List.zipIdx_map, List.map_map, List.map_map]
          rfl
  | parts α =>
      cases d with
      | null | bool | integer | float | string | mapping => cases h
      | sequence ds =>
          cases h
          rw [content_loaded_parts, elements, List.zipIdx_map, List.map_map, List.map_map]
          rfl
  | namedParts α =>
      cases d with
      | null | bool | integer | float | string | sequence => cases h
      | mapping entries =>
          cases h
          rw [content_loaded_namedParts reader (Document.wellFormed_mapping.mp hd).1, elements,
            List.map_map, List.map_map]
          rfl

/-- The tree of a field that is read from members is that of the members' trees. -/
theorem faults_loaded (reader : s.Reader) (hd : d.WellFormed) (h : s.items? d = some items) :
    s.faults (s.loaded reader d) =
      .merge none (items.map fun item => (item.1, s.itemFaults reader item.2)) := by
  cases s with
  | required | optional | requiredPart | optionalPart => cases h
  | list α =>
      cases d with
      | null | bool | integer | float | string | mapping => cases h
      | sequence ds =>
          cases h
          rw [faults_loaded_list, FaultTree.indexed_eq_map, List.zipIdx_map, List.map_map,
            List.map_map]
          rfl
  | parts α =>
      cases d with
      | null | bool | integer | float | string | mapping => cases h
      | sequence ds =>
          cases h
          rw [faults_loaded_parts, FaultTree.indexed_eq_map, List.zipIdx_map, List.map_map,
            List.map_map]
          rfl
  | namedParts α =>
      cases d with
      | null | bool | integer | float | string | sequence => cases h
      | mapping entries =>
          cases h
          rw [faults_loaded_namedParts reader (Document.wellFormed_mapping.mp hd).1, List.map_map]
          rfl

/-- In a field that is read from a list or map, what a member is read as stands under the key of the
member. -/
theorem get?_elements_loaded (reader : s.Reader) (hd : d.WellFormed) (h : s.items? d = some items)
    {item : FaultKey × Document} (hitem : item ∈ items) :
    Assoc.get? item.1 (s.elements (s.content (s.loaded reader d))) =
      some (s.readItem reader item.2) := by
  rw [elements_loaded reader hd h, Assoc.get?_map_value,
    (Assoc.get?_eq_some_iff (nodup_keys_items hd h)).mpr hitem]
  rfl

/-- Below the key of a member stands the tree of the member. -/
theorem child?_faults_loaded (reader : s.Reader) (hd : d.WellFormed) (h : s.items? d = some items)
    {item : FaultKey × Document} (hitem : item ∈ items) :
    ((s.faults (s.loaded reader d)).child? item.1).getD .empty = s.itemFaults reader item.2 := by
  rw [faults_loaded reader hd h]
  apply FaultTree.child?_merge
  · rw [Assoc.keys_map_value]
    exact nodup_keys_items hd h
  · exact List.mem_map.mpr ⟨item, hitem, rfl⟩

end

end Shape

/-! ### Readers of entities -/

namespace EntityType

/-- How the fields of entities of a type are read. -/
def readers : (t : EntityType) → t.layout.Readers
  | workflow => Workflow.readers
  | node => Node.readers
  | bounds => Bounds.readers
  | port => Port.readers
  | connection => Connection.readers
  | annotation => Annotation.readers
  | configMap => ConfigMap.readers Config.read
  | configValue => ConfigValue.readers

/-- Tolerant reading of a field never ends a build, for every type of entity. -/
theorem readers_tolerate (t : EntityType) : t.readers.Tolerate := by
  cases t with
  | workflow => exact Workflow.readers_tolerate
  | node => exact Node.readers_tolerate
  | bounds => exact Bounds.readers_tolerate
  | port => exact Port.readers_tolerate
  | connection => exact Connection.readers_tolerate
  | annotation => exact Annotation.readers_tolerate
  | configMap =>
      intro f
      cases f
      exact Config.read_tolerates
  | configValue =>
      intro f
      cases f
      trivial

/-- Whether a mapping with such entries can be an entity of the type. Only configurations are told
apart by their entries. -/
def accepts : EntityType → List (String × Document) → Bool
  | configMap, es => Assoc.contains (ConfigMap.layout.name .children) es
  | configValue, es => Assoc.contains (ConfigValue.layout.name .value) es
  | workflow, _ | node, _ | bounds, _ | port, _ | connection, _ | annotation, _ => true

/-- A field has no parts, parts of one type that accepts every mapping, or configurations. -/
theorem parts_cases (t : EntityType) (f : t.layout.Field) :
    t.parts f = [] ∨ (∃ u, t.parts f = [u] ∧ ∀ es, u.accepts es = true) ∨
      t.parts f = [configMap, configValue] := by
  cases t with
  | workflow =>
      cases f with
      | name => exact Or.inl rfl
      | nodes | connections | annotations => exact Or.inr (Or.inl ⟨_, rfl, fun _ => rfl⟩)
  | node =>
      cases f with
      | id | name | kind => exact Or.inl rfl
      | bounds | inPorts | outPorts => exact Or.inr (Or.inl ⟨_, rfl, fun _ => rfl⟩)
      | modelSettings => exact Or.inr (Or.inr rfl)
  | annotation =>
      cases f with
      | text | borderSize => exact Or.inl rfl
      | bounds => exact Or.inr (Or.inl ⟨_, rfl, fun _ => rfl⟩)
  | configMap =>
      cases f with
      | children => exact Or.inr (Or.inr rfl)
  | bounds | port | connection | configValue => exact Or.inl rfl

/-- The type of entity that a mapping in a field, or in a list or map there, is read as. -/
def partType? (t : EntityType) (f : t.layout.Field) (es : List (String × Document)) :
    Option EntityType :=
  (t.parts f).find? fun u => u.accepts es

end EntityType

/-- The reader reads the mappings that have a type as entities of their type, each field by itself,
and nothing else. -/
structure IsPartReader {α : Type} (view : α → AnyEntity)
    (read : BuildMode → Document → Reading α)
    (type? : List (String × Document) → Option EntityType) : Prop where
  /-- Mappings that have a type. -/
  read_mapping : ∀ es u, type? es = some u → ∃ a, tolerantly read (.mapping es) = .ok a ∧
    view a = ⟨u, Layout.loadedRecord u.readers es⟩
  /-- Whatever is read is such a mapping. -/
  exists_type : ∀ d a, tolerantly read d = .ok a → ∃ es u, d = .mapping es ∧ type? es = some u

/-- What is read is the entity of its mapping. -/
theorem IsPartReader.view_of_ok {α : Type} {view : α → AnyEntity}
    {read : BuildMode → Document → Reading α}
    {type? : List (String × Document) → Option EntityType} (h : IsPartReader view read type?)
    {d : Document} {a : α} (ha : tolerantly read d = .ok a) :
    ∃ es u, d = .mapping es ∧ type? es = some u ∧
      view a = ⟨u, Layout.loadedRecord u.readers es⟩ := by
  obtain ⟨es, u, rfl, hu⟩ := h.exists_type d a ha
  obtain ⟨b, hb, hview⟩ := h.read_mapping es u hu
  obtain rfl : a = b := Except.ok.inj (ha.symm.trans hb)
  exact ⟨es, u, rfl, hu, hview⟩

/-- So its tree is the tree of that entity. -/
theorem IsPartReader.faults_of_ok {α : Type} [HasFaults α] {types : List EntityType}
    {view : α → AnyEntity} {read : BuildMode → Document → Reading α}
    {type? : List (String × Document) → Option EntityType} (h : IsPartReader view read type?)
    (hview : IsView types view) {d : Document} {a : α} (ha : tolerantly read d = .ok a) :
    ∃ es u, d = .mapping es ∧ type? es = some u ∧
      HasFaults.faults a = (Layout.loadedRecord u.readers es).faults := by
  obtain ⟨es, u, hd, hu, hentity⟩ := h.view_of_ok ha
  refine ⟨es, u, hd, hu, ?_⟩
  rw [← hview.faults_view, hentity]
  rfl

/-- The parts of a field are read so; a field without parts holds no mappings that have a type. -/
def Shape.ReadsParts : (s : Shape) → s.PartView → s.Reader →
    (List (String × Document) → Option EntityType) → Prop
  | required _, _, _, type? | optional _, _, _, type? | list _, _, _, type? => ∀ es, type? es = none
  | @requiredPart _ _, view, reader, type? | @optionalPart _ _, view, reader, type? =>
    IsPartReader view reader type?
  | @parts _ _, view, reader, type? | @namedParts _ _, view, reader, type? =>
    IsPartReader view reader.read type?

/-- Readers that read all mappings as entities of one type. -/
theorem isPartReader_of_loadedRecord {α : Type} (t : EntityType) {view : α → AnyEntity}
    {read : BuildMode → Document → Reading α} (of : Record t.layout → α)
    (hview : ∀ r, view (of r) = ⟨t, r⟩)
    (hread : ∀ d, tolerantly read d =
      d.asEntries.map fun entries => of (Layout.loadedRecord t.readers entries)) :
    IsPartReader view read fun _ => some t := by
  constructor
  · intro es u hu
    cases hu
    exact ⟨_, hread _, hview _⟩
  · intro d a ha
    rw [hread] at ha
    obtain ⟨es, hes, -⟩ := exists_of_map_eq_ok ha
    exact ⟨es, t, Document.eq_mapping_of_asEntries hes, rfl⟩

/-- A configuration is a map if it has an entry for children, else a value if it has an entry for
one. -/
theorem Config.type?_eq (es : List (String × Document)) :
    ([.configMap, .configValue].find? fun u => EntityType.accepts u es) =
      if Assoc.contains (ConfigMap.layout.name .children) es then some EntityType.configMap
      else if Assoc.contains (ConfigValue.layout.name .value) es then some .configValue
      else none := by
  have hskip : ∀ (u : EntityType) (rest : List EntityType), ¬ u.accepts es = true →
      ((u :: rest).find? fun u => u.accepts es) = rest.find? fun u => u.accepts es :=
    fun u rest h => List.find?_cons_of_neg h
  by_cases hmap : Assoc.contains (ConfigMap.layout.name .children) es
  · rw [if_pos hmap]
    exact List.find?_cons_of_pos hmap
  · rw [if_neg hmap, hskip .configMap _ hmap]
    by_cases hvalue : Assoc.contains (ConfigValue.layout.name .value) es
    · rw [if_pos hvalue]
      exact List.find?_cons_of_pos hvalue
    · rw [if_neg hvalue, hskip .configValue _ hvalue]
      rfl

/-- Configurations are read as maps if they have an entry for children and as values if they have
one for a value. -/
theorem Config.isPartReader_read : IsPartReader Config.view Config.read fun es =>
    [.configMap, .configValue].find? fun u => EntityType.accepts u es := by
  simp only [Config.type?_eq]
  constructor
  · intro es u hu
    have hread : tolerantly read (.mapping es) = loadedEntries read es := tolerantly_read _
    rw [hread]
    unfold loadedEntries
    by_cases hmap : Assoc.contains (ConfigMap.layout.name .children) es
    · rw [if_pos hmap] at hu
      cases hu
      exact ⟨_, if_pos hmap, rfl⟩
    · rw [if_neg hmap] at hu
      by_cases hvalue : Assoc.contains (ConfigValue.layout.name .value) es
      · rw [if_pos hvalue] at hu
        cases hu
        exact ⟨_, (if_neg hmap).trans (if_pos hvalue), rfl⟩
      · rw [if_neg hvalue] at hu
        cases hu
  · intro d a ha
    rw [tolerantly_read] at ha
    obtain ⟨es, hes, hentries⟩ := exists_of_bind_eq_ok ha
    refine ⟨es, ?_⟩
    rw [Document.eq_mapping_of_asEntries hes]
    unfold loadedEntries at hentries
    by_cases hmap : Assoc.contains (ConfigMap.layout.name .children) es
    · exact ⟨.configMap, rfl, if_pos hmap⟩
    · by_cases hvalue : Assoc.contains (ConfigValue.layout.name .value) es
      · exact ⟨.configValue, rfl, (if_neg hmap).trans (if_pos hvalue)⟩
      · rw [if_neg hmap, if_neg hvalue] at hentries
        cases hentries

/-- What stands in a field of any type is read as the schema says. -/
theorem EntityType.readsParts (t : EntityType) (f : t.layout.Field) :
    (t.layout.shape f).ReadsParts (t.partView f) (t.readers f) (t.partType? f) := by
  have hbounds : IsPartReader (fun b => ⟨bounds, Entity.toRecord b⟩) Bounds.read
      fun _ => some bounds :=
    isPartReader_of_loadedRecord bounds (Entity.ofRecord (E := Bounds))
      (fun r => congrArg (Sigma.mk bounds) (Entity.toRecord_ofRecord (E := Bounds) r))
      (Entity.tolerantly_read Bounds.readers_tolerate)
  have hport : IsPartReader (fun p => ⟨port, Entity.toRecord p⟩) Port.reader.read
      fun _ => some port :=
    isPartReader_of_loadedRecord port (Entity.ofRecord (E := Port))
      (fun r => congrArg (Sigma.mk port) (Entity.toRecord_ofRecord (E := Port) r))
      (Entity.tolerantly_read Port.readers_tolerate)
  cases t with
  | workflow =>
      cases f with
      | name => exact fun _ => rfl
      | nodes =>
          exact isPartReader_of_loadedRecord node (Entity.ofRecord (E := Node))
            (fun r => congrArg (Sigma.mk node) (Entity.toRecord_ofRecord (E := Node) r))
            (Entity.tolerantly_read Node.readers_tolerate)
      | connections =>
          exact isPartReader_of_loadedRecord connection (Entity.ofRecord (E := Connection))
            (fun r =>
              congrArg (Sigma.mk connection) (Entity.toRecord_ofRecord (E := Connection) r))
            (Entity.tolerantly_read Connection.readers_tolerate)
      | annotations =>
          exact isPartReader_of_loadedRecord EntityType.annotation
            (Entity.ofRecord (E := Annotation))
            (fun r => congrArg (Sigma.mk EntityType.annotation)
              (Entity.toRecord_ofRecord (E := Annotation) r))
            (Entity.tolerantly_read Annotation.readers_tolerate)
  | node =>
      cases f with
      | id | name | kind => exact fun _ => rfl
      | bounds => exact hbounds
      | inPorts | outPorts => exact hport
      | modelSettings => exact Config.isPartReader_read
  | annotation =>
      cases f with
      | text | borderSize => exact fun _ => rfl
      | bounds => exact hbounds
  | configMap =>
      cases f with
      | children => exact Config.isPartReader_read
  | connection => cases f <;> exact fun _ => rfl
  | bounds | port | configValue => cases f <;> exact fun _ => rfl

/-! ### Mappings below mappings -/

/-- The entry of a field is the mapping or has it as a member. -/
def Shape.Holds (s : Shape) (d : Document) (sub : List (String × Document)) : Prop :=
  d = .mapping sub ∨ ∃ items key, s.items? d = some items ∧ (key, .mapping sub) ∈ items

/-- A member of a list or map is less deep than the whole. -/
theorem Shape.depth_le_of_mem_items {s : Shape} {d : Document}
    {items : List (FaultKey × Document)} (h : s.items? d = some items)
    {item : FaultKey × Document} (hitem : item ∈ items) : item.2.depth ≤ d.depth := by
  rcases items?_cases h with ⟨ds, rfl, rfl⟩ | ⟨entries, rfl, rfl⟩
  · obtain ⟨e, he, rfl⟩ := List.mem_map.mp hitem
    have hle := Document.depth_le_depthItems (List.fst_mem_of_mem_zipIdx he)
    exact Nat.le_succ_of_le hle
  · obtain ⟨e, he, rfl⟩ := List.mem_map.mp hitem
    exact Nat.le_succ_of_le (Document.depth_le_depthEntries he)

/-- What holds of a mapping whenever it holds of all that are read as parts from its entries, holds
of all mappings. -/
theorem EntityType.induction_on_parts {P : EntityType → List (String × Document) → Prop}
    (step : ∀ t es, (Document.mapping es).WellFormed →
      (∀ f d sub u, Document.present? (t.layout.name f) es = some d →
        (t.layout.shape f).Holds d sub → t.partType? f sub = some u → P u sub) → P t es)
    (t : EntityType) {es : List (String × Document)} (hes : (Document.mapping es).WellFormed) :
    P t es := by
  -- what stands in an entry is less deep than the mapping, hence the strong induction on depth
  induction hdepth : Document.depthEntries es using Nat.strongRecOn generalizing t es with
  | ind n ih =>
      refine step t es hes fun f d sub u hpresent hholds _ => ?_
      have hmem := Document.mem_of_present? hpresent
      have hd : d.WellFormed := (Document.wellFormed_mapping.mp hes).2 _ hmem
      have hsub : (Document.mapping sub).WellFormed ∧ (Document.mapping sub).depth ≤ d.depth := by
        rcases hholds with rfl | ⟨items, key, hitems, hitem⟩
        · exact ⟨hd, Nat.le_refl _⟩
        · exact ⟨Shape.wellFormed_of_mem_items hd hitems hitem,
            Shape.depth_le_of_mem_items hitems hitem⟩
      have hless : Document.depthEntries sub < n := by
        rw [← hdepth]
        exact Nat.lt_of_succ_le (Nat.le_trans hsub.2 (Document.depth_le_depthEntries hmem))
      exact ih _ hless u hsub.1 rfl

/-! ### Where entities stand -/

/-- Below a mapping that is read as an entity of a type, following a path leads to another mapping
that is read as an entity: through single parts and through members of lists and maps. -/
inductive StandsAt : (t : EntityType) → List (String × Document) → FaultPath → (u : EntityType) →
    List (String × Document) → Prop where
  /-- The mapping itself. -/
  | root {t : EntityType} {es : List (String × Document)} : StandsAt t es [] t es
  /-- A single part, and what is below it. -/
  | part {t u v : EntityType} {es sub target : List (String × Document)} {f : t.layout.Field}
      {rest : FaultPath} (hsingle : (t.layout.shape f).IsSingle)
      (hfield : Assoc.get? (t.layout.name f) es = some (.mapping sub))
      (htype : t.partType? f sub = some u) (hrest : StandsAt u sub rest v target) :
      StandsAt t es (t.layout.key f :: rest) v target
  /-- A member of a list or map, and what is below it. -/
  | member {t u v : EntityType} {es sub target : List (String × Document)} {f : t.layout.Field}
      {d : Document} {items : List (FaultKey × Document)} {key : FaultKey} {rest : FaultPath}
      (hfield : Assoc.get? (t.layout.name f) es = some d)
      (hitems : (t.layout.shape f).items? d = some items) (hmem : (key, .mapping sub) ∈ items)
      (htype : t.partType? f sub = some u) (hrest : StandsAt u sub rest v target) :
      StandsAt t es (t.layout.key f :: key :: rest) v target

namespace Spot

/-- The entity that stands at a spot. A single part stands at the spot of its field. -/
def entity? : Spot → Option AnyEntity
  | entity x => some x
  | field (@Shape.requiredPart _ _) view c | field (@Shape.optionalPart _ _) view c => c.map view
  | field (.required _) _ _ | field (.optional _) _ _ | field (.list _) _ _
  | field (@Shape.parts _ _) _ _ | field (@Shape.namedParts _ _) _ _ | element _ _ => none

/-- The entity at the end of a path. -/
def entityAt? (s : Spot) (p : FaultPath) : Option AnyEntity := (s.at? p).bind entity?

/-- A path to an entity leads below the child that its first key names. -/
theorem entityAt?_cons (s : Spot) (key : FaultKey) (rest : FaultPath) :
    s.entityAt? (key :: rest) = (s.child? key).bind fun c => c.entityAt? rest := by
  unfold entityAt?
  rw [at?_cons, Option.bind_assoc]

/-- What is below a single part is below the spot of its field. -/
theorem entityAt?_part {s : Shape} (hs : s.IsSingle) (view : s.PartView) {c : s.Content}
    {x : AnyEntity} (hx : s.members view c = [x]) (p : FaultPath) :
    (field s view c).entityAt? p = (entity x).entityAt? p := by
  cases s with
  | required | optional | list | parts | namedParts => cases hs
  | requiredPart | optionalPart =>
      cases c with
      | none => cases hx
      | some a =>
          cases hx
          cases p with
          | nil => rfl
          | cons key rest => rfl

end Spot

namespace Shape

variable {s : Shape} {view : s.PartView} {reader : s.Reader}
  {type? : List (String × Document) → Option EntityType} {es : List (String × Document)}
  {u : EntityType}

/-- A mapping that has a type is read as an entity of that type. -/
theorem ReadsParts.members_loaded (h : s.ReadsParts view reader type?) (hs : s.IsSingle)
    (hu : type? es = some u) :
    s.members view (s.content (s.loaded reader (.mapping es))) =
      [⟨u, Layout.loadedRecord u.readers es⟩] := by
  cases s with
  | required | optional | list | parts | namedParts => cases hs
  | requiredPart | optionalPart =>
      obtain ⟨a, ha, hview⟩ := h.read_mapping es u hu
      simp only [loaded, ha]
      exact congrArg (fun x => [x]) hview

/-- So is a member of a list or map. -/
theorem ReadsParts.child?_loaded (h : s.ReadsParts view reader type?) {d : Document}
    {items : List (FaultKey × Document)} (hd : d.WellFormed) (hitems : s.items? d = some items)
    {key : FaultKey} (hmem : (key, .mapping es) ∈ items) (hu : type? es = some u) :
    s.child? view (s.content (s.loaded reader d)) key =
      some (.entity ⟨u, Layout.loadedRecord u.readers es⟩) := by
  have hpart : ∀ {α : Type} [HasFaults α] {view : α → AnyEntity} {reader : ItemReader α},
      IsPartReader view reader.read type? →
        view (reader.part (.mapping es)) = ⟨u, Layout.loadedRecord u.readers es⟩ := by
    intro α _ view reader h
    obtain ⟨a, ha, hview⟩ := h.read_mapping es u hu
    rw [ItemReader.part, ha]
    exact hview
  cases s with
  | required | optional | requiredPart | optionalPart => cases hitems
  -- plain values in a list are no entities, whatever the mapping is
  | list =>
      have hnone : type? es = none := h es
      rw [hnone] at hu
      cases hu
  | parts α =>
      cases d with
      | null | bool | integer | float | string | mapping => cases hitems
      | sequence ds =>
          cases hitems
          obtain ⟨e, he, heq⟩ := List.mem_map.mp hmem
          obtain ⟨rfl, he'⟩ := Prod.mk.inj heq
          have hitem : ds[e.2]? = some (.mapping es) := by
            rw [← he']
            exact List.mem_zipIdx_iff_getElem?.mp he
          rw [content_loaded_parts, child?, List.getElem?_map, hitem]
          exact congrArg (fun x => some (Spot.entity x)) (hpart h)
  | namedParts α =>
      cases d with
      | null | bool | integer | float | string | sequence => cases hitems
      | mapping entries =>
          cases hitems
          obtain ⟨e, he, heq⟩ := List.mem_map.mp hmem
          obtain ⟨rfl, he'⟩ := Prod.mk.inj heq
          have hkeys := (Document.wellFormed_mapping.mp hd).1
          rw [content_loaded_namedParts reader hkeys]
          have hget : Assoc.get? e.1 (entries.map fun x => (x.1, reader.part x.2)) =
              some (reader.part (.mapping es)) := by
            rw [Assoc.get?_map_value, (Assoc.get?_eq_some_iff hkeys).mpr he, he']
            rfl
          rw [child?, hget]
          exact congrArg (fun x => some (Spot.entity x)) (hpart h)

end Shape

/-- Under the key of a field stands the field. -/
theorem AnyEntity.child?_key {t : EntityType} (r : Record t.layout) (f : t.layout.Field) :
    Spot.child? (.entity ⟨t, r⟩) (t.layout.key f) = some (.field _ (t.partView f) (r.get f)) := by
  show (t.layout.field? (t.layout.name f)).map _ = _
  rw [Layout.field?_name]
  rfl

/-- What a loaded entity holds in a field whose entry is not null. -/
theorem Layout.get_loadedRecord {t : EntityType} {readers : t.layout.Readers}
    {es : List (String × Document)} {f : t.layout.Field} {d : Document}
    (hd : Assoc.get? (t.layout.name f) es = some d) (hnull : d.isNull = false) :
    (loadedRecord readers es).get f =
      (t.layout.shape f).content ((t.layout.shape f).loaded (readers f) d) := by
  have hslot : (t.layout.shape f).settled (t.layout.key f) (Builder.loadedSlot readers es f) =
      (t.layout.shape f).loaded (readers f) d := Builder.settled_loadedSlot hd hnull
  exact congrArg (Shape.content _) hslot

/-- The tree that a loaded entity has for a field. -/
def Layout.entryFaults {L : Layout} (readers : L.Readers) (es : List (String × Document))
    (f : L.Field) : FaultTree :=
  match Document.present? (L.name f) es with
  | none => if (L.shape f).isRequired then .leaf (Fault.missing (L.name f)) else .empty
  | some d => (L.shape f).faults ((L.shape f).loaded (readers f) d)

/-- The tree of an entity that is read is merged from those of its fields. -/
theorem Layout.faults_loadedRecord {L : Layout} (readers : L.Readers)
    (es : List (String × Document)) :
    (loadedRecord readers es).faults = .merge none (L.fieldTrees (entryFaults readers es)) := by
  show FaultTree.merge none (L.fieldTrees fun f => (L.shape f).faults
    ((L.shape f).settled (L.key f) (Builder.loadedSlot readers es f))) = _
  congr 2
  funext f
  unfold Builder.loadedSlot entryFaults
  cases Document.present? (L.name f) es with
  | none => exact Shape.faults_settled_unset _ _
  | some d =>
      exact congrArg (Shape.faults _)
        (Shape.settled_of_not_isMissing _ (Shape.isMissing_loaded _ _ _))

/-- What the tree of a loaded entity has at a field whose entry is not null. -/
theorem Layout.subtree_loadedRecord {L : Layout} {readers : L.Readers}
    {es : List (String × Document)} {f : L.Field} {d : Document}
    (hd : Assoc.get? (L.name f) es = some d) (hnull : d.isNull = false) :
    (loadedRecord readers es).faults.subtree (L.name f) =
      (L.shape f).faults ((L.shape f).loaded (readers f) d) := by
  have hpresent : Document.present? (L.name f) es = some d := by
    simp [Document.present?, hd, hnull]
  rw [faults_loadedRecord, FaultTree.subtree_merge (L.nodup_keys_fieldTrees _)
    (L.mem_fieldTrees _ f), entryFaults, hpresent]

/-- A null has no members. -/
theorem Shape.isNull_eq_false_of_items? {s : Shape} {d : Document}
    {items : List (FaultKey × Document)} (h : s.items? d = some items) : d.isNull = false := by
  rcases items?_cases h with ⟨ds, rfl, -⟩ | ⟨entries, rfl, -⟩ <;> rfl

/-- The entity at the end of the path is what is read from the mapping there alone. -/
theorem StandsAt.entityAt?_eq {t u : EntityType} {es sub : List (String × Document)}
    {p : FaultPath} (h : StandsAt t es p u sub) (hd : (Document.mapping es).WellFormed) :
    (Spot.entity ⟨t, Layout.loadedRecord t.readers es⟩).entityAt? p =
        some ⟨u, Layout.loadedRecord u.readers sub⟩ ∧
      (Document.mapping sub).WellFormed := by
  induction h with
  | root => exact ⟨rfl, hd⟩
  | @part t u v es sub target f rest hsingle hfield htype hrest ih =>
      have hsub : (Document.mapping sub).WellFormed :=
        (Document.wellFormed_mapping.mp hd).2 _ (Assoc.mem_of_get?_eq_some hfield)
      have hpart := (t.readsParts f).members_loaded hsingle htype
      obtain ⟨hentity, htarget⟩ := ih hsub
      refine ⟨?_, htarget⟩
      rw [entityAt?_cons, AnyEntity.child?_key, Layout.get_loadedRecord hfield rfl,
        Option.bind_some, entityAt?_part hsingle _ hpart]
      exact hentity
  | @member t u v es sub target f d items key rest hfield hitems hmem htype hrest ih =>
      have hwf : d.WellFormed :=
        (Document.wellFormed_mapping.mp hd).2 _ (Assoc.mem_of_get?_eq_some hfield)
      have hsub : (Document.mapping sub).WellFormed :=
        Shape.wellFormed_of_mem_items hwf hitems hmem
      have hchild := (t.readsParts f).child?_loaded hwf hitems hmem htype
      obtain ⟨hentity, htarget⟩ := ih hsub
      refine ⟨?_, htarget⟩
      rw [entityAt?_cons, AnyEntity.child?_key,
        Layout.get_loadedRecord hfield (Shape.isNull_eq_false_of_items? hitems), Option.bind_some,
        entityAt?_cons]
      show (Shape.child? _ _ _ key).bind _ = _
      rw [hchild]
      exact hentity

end Flowsheet
