import Flowsheet.Proofs.Reading.Parts

/-!
# Diagnostics in the order of the document

The diagnostics of a tolerant load are the faults of the loaded workflow, one for each, and they
come in the order of the document: a path before its extensions, and paths that part ways by the
first keys in which they differ (`FaultPath.Precedes`). Fields have the order in which their entity
declares them, places are numbers, and keys have the order of the mapping in the document.

A tree is `InOrder` for a document if its faults come in that order. A merged tree is in order if
the keys of its children are and every child is in order for what the document has there
(`InOrder.merge`). The trees of loaded entities are merged from those of their fields, so the rest
is an induction over the mappings that are parts of mappings (`inOrder_loadedRecord`). Stand-ins do
not stand for anything in the document, but their faults are missing fields, and those have the
order of declaration in any document.
-/

namespace Flowsheet

open EntityType

/-! ### The order of paths -/

/-- What a document has under a key, nothing at all if it has no such key. -/
def Document.under : Document → FaultKey → Document
  | .mapping entries, .field name | .mapping entries, .key name =>
    (Assoc.get? name entries).getD .null
  | .sequence items, .index i => (items[i]?).getD .null
  | _, _ => .null

/-- The types that entities below a key of an entity, or of a list or map of entities, may have. -/
def EntityType.typesBelow (types : List EntityType) : FaultKey → List EntityType
  | .field name => ((findField? types name).map fun field => field.1.parts field.2).getD []
  | .index _ | .key _ | .prior => types

/-- One of two keys at the same place comes before the other. -/
def FaultKey.Precedes (types : List EntityType) (d : Document) : FaultKey → FaultKey → Prop
  | .field a, .field b => ∃ (t : EntityType) (f g : t.layout.Field),
    findField? types a = some ⟨t, f⟩ ∧ findField? types b = some ⟨t, g⟩ ∧
      List.Sublist [f, g] t.layout.fields
  | .index i, .index j => i < j
  | .key a, .key b => ∃ entries, d = .mapping entries ∧ List.Sublist [a, b] (Assoc.keys entries)
  | _, _ => False

/-- One of two paths from the same place in a document comes before the other. -/
inductive FaultPath.Precedes : List EntityType → Document → FaultPath → FaultPath → Prop where
  /-- A path comes before its extensions. -/
  | extension {types : List EntityType} {d : Document} {key : FaultKey} {rest : FaultPath} :
      Precedes types d [] (key :: rest)
  /-- Where paths part ways the keys decide. -/
  | differ {types : List EntityType} {d : Document} {k j : FaultKey} {p q : FaultPath}
      (h : FaultKey.Precedes types d k j) : Precedes types d (k :: p) (j :: q)
  /-- Up to there they lead to the same place. -/
  | deeper {types : List EntityType} {d : Document} {key : FaultKey} {p q : FaultPath}
      (h : Precedes (typesBelow types key) (d.under key) p q) :
      Precedes types d (key :: p) (key :: q)

/-- Of two things in a list without repetitions only one comes before the other. -/
theorem not_sublist_pair {ι : Type} {xs : List ι} (h : xs.Nodup) {a b : ι}
    (hab : List.Sublist [a, b] xs) : ¬ List.Sublist [b, a] xs := by
  induction xs with
  | nil => cases hab
  | cons x rest ih =>
      rw [List.nodup_cons] at h
      intro hba
      cases hab with
      | cons _ hab =>
          cases hba with
          | cons _ hba => exact ih h.2 hab hba
          | cons_cons _ hba => exact h.1 (hab.subset (by simp))
      | cons_cons _ hab =>
          cases hba with
          | cons _ hba => exact h.1 (hba.subset (by simp))
          | cons_cons _ hba => exact h.1 (hab.subset (by simp))

/-- What a well-formed document has under a key is well-formed. -/
theorem Document.WellFormed.under {d : Document} (h : d.WellFormed) (key : FaultKey) :
    (d.under key).WellFormed := by
  have hentry : ∀ entries name, d = .mapping entries →
      ((Assoc.get? name entries).getD .null).WellFormed := by
    rintro entries name rfl
    cases hget : Assoc.get? name entries with
    | none => trivial
    | some e => exact (wellFormed_mapping.mp h).2 _ (Assoc.mem_of_get?_eq_some hget)
  have hitem : ∀ (items : List Document) (i : Nat), d = .sequence items →
      ((items[i]?).getD .null).WellFormed := by
    rintro items i rfl
    cases hget : items[i]? with
    | none => trivial
    | some e => exact wellFormed_sequence.mp h e (List.mem_of_getElem? hget)
  cases d with
  | mapping entries =>
      cases key with
      | field name | key name => exact hentry entries name rfl
      | index | prior => trivial
  | sequence items =>
      cases key with
      | index i => exact hitem items i rfl
      | field | key | prior => trivial
  | null | bool | integer | float | string => cases key <;> trivial

/-- Of two keys at one place only one comes first. -/
theorem FaultKey.Precedes.not_symm {types : List EntityType} {d : Document} (hd : d.WellFormed)
    {k j : FaultKey} (h : FaultKey.Precedes types d k j) : ¬ FaultKey.Precedes types d j k := by
  intro h'
  cases k with
  | field a =>
      cases j with
      | field b =>
          obtain ⟨t, f, g, hf, hg, hfg⟩ := h
          obtain ⟨t', g', f', hg', hf', hgf⟩ := h'
          rw [hf] at hf'
          cases hf'
          rw [hg] at hg'
          cases hg'
          exact not_sublist_pair t.layout.nodup_fields hfg hgf
      | index | key | prior => cases h
  | index i =>
      cases j with
      | index j => exact Nat.lt_asymm (show i < j from h) h'
      | field | key | prior => cases h
  | key a =>
      cases j with
      | key b =>
          obtain ⟨entries, rfl, hab⟩ := h
          obtain ⟨_, heq, hba⟩ := h'
          cases heq
          exact not_sublist_pair (Document.wellFormed_mapping.mp hd).1 hab hba
      | field | index | prior => cases h
  | prior => cases j <;> cases h

/-- The order is strict. -/
theorem FaultPath.Precedes.not_symm {types : List EntityType} {d : Document} (hd : d.WellFormed)
    {p q : FaultPath} (h : Precedes types d p q) : ¬ Precedes types d q p := by
  induction h with
  | extension => intro h'; cases h'
  | differ h =>
      intro h'
      cases h' with
      | differ h' => exact h.not_symm hd h'
      | deeper => exact h.not_symm hd h
  | deeper h ih =>
      intro h'
      cases h' with
      | differ h' => exact h'.not_symm hd h'
      | deeper h' => exact ih (hd.under _) h'

/-! ### Trees in order -/

namespace FaultTree

/-- The tree has one fault for each of its places, and they come in the order of a document. -/
structure InOrder (types : List EntityType) (d : Document) (t : FaultTree) : Prop where
  /-- No place is there twice. -/
  canonical : Canonical t
  /-- One fault after the other. -/
  ordered : (t.faults.map (·.1)).Pairwise (FaultPath.Precedes types d)

variable {types : List EntityType} {d : Document}

/-- A tree without faults is in any order. -/
theorem InOrder.empty : InOrder types d .empty := ⟨trivial, .nil⟩

/-- A single fault is in any order. -/
theorem InOrder.leaf (fault : Fault) : InOrder types d (.leaf fault) :=
  ⟨trivial, List.pairwise_singleton _ _⟩

/-- Children in order, under keys in order, with or without a fault above them. -/
theorem InOrder.merge {own : Option Fault} {cs : List (FaultKey × FaultTree)}
    (hnodup : (Assoc.keys cs).Nodup)
    (hkeys : (Assoc.keys cs).Pairwise (FaultKey.Precedes types d))
    (h : ∀ c ∈ cs, InOrder (typesBelow types c.1) (d.under c.1) c.2) :
    InOrder types d (.merge own cs) := by
  refine ⟨canonical_merge fun c hc => (h c hc).canonical, ?_⟩
  have hpaths : ((FaultTree.merge own cs).faults.map (·.1)) =
      own.toList.map (fun _ => []) ++
        cs.flatMap fun c => (c.2.faults.map (·.1)).map (c.1 :: ·) := by
    rw [faults_merge hnodup, faultsBelow_eq_flatMap, List.map_append, List.map_flatMap]
    simp only [List.map_map]
    rfl
  have hbelow : (cs.flatMap fun c => (c.2.faults.map (·.1)).map (c.1 :: ·)).Pairwise
      (FaultPath.Precedes types d) := by
    rw [List.pairwise_flatMap]
    constructor
    · intro c hc
      rw [List.pairwise_map]
      exact (h c hc).ordered.imp fun hpq => .deeper hpq
    · refine (List.pairwise_map.mp hkeys).imp fun {c c'} hcc' => ?_
      intro p hp q hq
      obtain ⟨p', -, rfl⟩ := List.mem_map.mp hp
      obtain ⟨q', -, rfl⟩ := List.mem_map.mp hq
      exact .differ hcc'
  rw [hpaths, List.pairwise_append]
  refine ⟨?_, hbelow, ?_⟩
  · cases own with
    | none => exact .nil
    | some fault => exact List.pairwise_singleton _ _
  · intro p hp q hq
    obtain ⟨-, -, rfl⟩ := List.mem_map.mp hp
    obtain ⟨c, -, hq⟩ := List.mem_flatMap.mp hq
    obtain ⟨q', -, rfl⟩ := List.mem_map.mp hq
    exact .extension

/-- A fault that is added above others which have none above them. -/
theorem inject_merge_none (fault : Fault) (cs : List (FaultKey × FaultTree)) :
    (merge none cs).inject fault = merge (some fault) cs := by
  unfold merge ofParts
  cases Assoc.ofList (cs.filter fun c => c.2.hasFaults) <;> rfl

end FaultTree

open FaultTree (InOrder)

/-! ### Fields and members -/

/-- Fields of an entity come in the order of declaration. -/
theorem EntityType.pairwise_keys {types : List EntityType} {t : EntityType}
    (hown : ∀ f, findField? types (t.layout.name f) = some ⟨t, f⟩) (d : Document)
    {fs : List t.layout.Field} (hfs : List.Sublist fs t.layout.fields) :
    (fs.map t.layout.key).Pairwise (FaultKey.Precedes types d) := by
  have hfields : t.layout.fields.Pairwise fun f g =>
      FaultKey.Precedes types d (t.layout.key f) (t.layout.key g) := by
    rw [List.pairwise_iff_forall_sublist]
    intro f g hfg
    exact ⟨t, f, g, hown f, hown g, hfg⟩
  exact List.pairwise_map.mpr (hfields.sublist hfs)

/-- Members come in the order of the document. -/
theorem Shape.pairwise_keys_items {s : Shape} {d : Document} {items : List (FaultKey × Document)}
    (h : s.items? d = some items) (types : List EntityType) :
    (Assoc.keys items).Pairwise (FaultKey.Precedes types d) := by
  rcases items?_cases h with ⟨ds, rfl, rfl⟩ | ⟨entries, rfl, rfl⟩
  · rw [keys_zipIdx, List.pairwise_map]
    exact List.pairwise_lt_range'
  · have hkeys : Assoc.keys (entries.map fun e => (FaultKey.key e.1, e.2)) =
        (Assoc.keys entries).map .key := by
      rw [Assoc.keys_map, Assoc.keys, List.map_map]
      rfl
    rw [hkeys, List.pairwise_map, List.pairwise_iff_forall_sublist]
    intro a b hab
    exact ⟨entries, rfl, hab⟩

/-- A member is what the document has under its key. -/
theorem Shape.under_of_mem_items {s : Shape} {d : Document} {items : List (FaultKey × Document)}
    (hd : d.WellFormed) (h : s.items? d = some items) {item : FaultKey × Document}
    (hitem : item ∈ items) : d.under item.1 = item.2 := by
  rcases items?_cases h with ⟨ds, rfl, rfl⟩ | ⟨entries, rfl, rfl⟩
  · obtain ⟨e, he, rfl⟩ := List.mem_map.mp hitem
    show (ds[e.2]?).getD .null = e.1
    rw [List.mem_zipIdx_iff_getElem?.mp he]
    rfl
  · obtain ⟨e, he, rfl⟩ := List.mem_map.mp hitem
    show (Assoc.get? e.1 entries).getD .null = e.2
    rw [(Assoc.get?_eq_some_iff (Document.wellFormed_mapping.mp hd).1).mpr he]
    rfl

/-! ### Stand-ins -/

/-- The stand-in for a part of a list or map is a placeholder of one of the types. -/
def Shape.FallsBackTo (types : List EntityType) : (s : Shape) → s.PartView → s.Reader → Prop
  | @parts _ _, view, reader | @namedParts _ _, view, reader =>
    ∃ u ∈ types, view reader.fallback = ⟨u, Record.placeholder u.layout⟩
  | required _, _, _ | optional _, _, _ | list _, _, _ | @requiredPart _ _, _, _
  | @optionalPart _ _, _, _ => True

/-- In every field of an entity, the stand-in for a part is a placeholder of its type. -/
theorem EntityType.fallsBackTo (t : EntityType) (f : t.layout.Field) :
    (t.layout.shape f).FallsBackTo (t.parts f) (t.partView f) (t.readers f) := by
  cases t with
  | workflow =>
      cases f with
      | name => trivial
      | nodes =>
          exact ⟨node, List.mem_cons_self,
            congrArg (Sigma.mk node) (Entity.toRecord_ofRecord (E := Node) _)⟩
      | connections =>
          exact ⟨connection, List.mem_cons_self,
            congrArg (Sigma.mk connection) (Entity.toRecord_ofRecord (E := Connection) _)⟩
      | annotations =>
          exact ⟨EntityType.annotation, List.mem_cons_self, congrArg
            (Sigma.mk EntityType.annotation) (Entity.toRecord_ofRecord (E := Annotation) _)⟩
  | node =>
      cases f with
      | id | name | kind | bounds | modelSettings => trivial
      | inPorts | outPorts =>
          exact ⟨port, List.mem_cons_self,
            congrArg (Sigma.mk port) (Entity.toRecord_ofRecord (E := Port) _)⟩
  | configMap =>
      cases f with
      | children =>
          have hempty : Entity.toRecord ConfigMap.empty = Record.placeholder ConfigMap.layout :=
            Entity.toRecord_ofRecord (E := ConfigMap) (Record.placeholder ConfigMap.layout)
          exact ⟨configMap, List.mem_cons_self, congrArg (Sigma.mk configMap) hempty⟩
  | bounds | port | connection | annotation | configValue => cases f <;> trivial

/-- The tree of a member of a list or map: that of an entity which is read from the member, or that
of a placeholder with the error above the missing fields. -/
theorem ItemReader.faults_part_cases {α : Type} [HasFaults α] {types : List EntityType}
    {view : α → AnyEntity} {reader : ItemReader α}
    {type? : List (String × Document) → Option EntityType} (hview : IsView types view)
    (hread : IsPartReader view reader.read type?)
    (hfallback : ∃ u ∈ types, view reader.fallback = ⟨u, Record.placeholder u.layout⟩)
    (d : Document) :
    (∃ es u, d = .mapping es ∧ type? es = some u ∧
      HasFaults.faults (reader.part d) = (Layout.loadedRecord u.readers es).faults) ∨
    ∃ e, tolerantly reader.read d = .error e ∧ ∃ u ∈ types,
      HasFaults.faults (reader.part d) = .merge (some ⟨.field e⟩)
        (u.layout.requiredNames.map fun name => (.field name, .leaf (Fault.missing name))) := by
  unfold ItemReader.part
  cases hpart : tolerantly reader.read d with
  | ok a => exact Or.inl (hread.faults_of_ok hview hpart)
  | error e =>
      obtain ⟨u, hu, hplaceholder⟩ := hfallback
      have hfaults : HasFaults.faults reader.fallback = (Record.placeholder u.layout).faults := by
        rw [← hview.faults_view, hplaceholder]
        rfl
      refine Or.inr ⟨e, rfl, u, hu, ?_⟩
      show HasFaults.faults (HasFaults.mark ⟨.field e⟩ reader.fallback) = _
      rw [HasFaults.faults_mark, hfaults]
      show (FaultTree.missing u.layout.requiredNames).inject _ = _
      rw [FaultTree.missing, FaultTree.inject_merge_none]

/-- The types of a field's parts have fields of different names. -/
theorem EntityType.findField?_parts (t : EntityType) (f : t.layout.Field) {u : EntityType}
    (hu : u ∈ t.parts f) (g : u.layout.Field) :
    findField? (t.parts f) (u.layout.name g) = some ⟨u, g⟩ := by
  rcases t.parts_cases f with hparts | ⟨v, hparts, -⟩ | hparts
  · rw [hparts] at hu
    cases hu
  · rw [hparts] at hu ⊢
    obtain rfl := List.mem_singleton.mp hu
    exact u.owns.findField?_eq g
  · rw [hparts] at hu ⊢
    rcases (List.mem_cons.mp hu).imp_right List.mem_singleton.mp with rfl | rfl
    · cases g
      rfl
    · cases g
      rfl

/-- The faults of a placeholder are missing fields, whatever the document; a further fault may stand
above them. -/
theorem inOrder_missing {types : List EntityType} {t : EntityType}
    (hown : ∀ f, findField? types (t.layout.name f) = some ⟨t, f⟩) (d : Document)
    (own : Option Fault) :
    InOrder types d (.merge own (t.layout.requiredNames.map fun name =>
      (.field name, .leaf (Fault.missing name)))) := by
  have hkeys : Assoc.keys (t.layout.requiredNames.map fun name =>
      (FaultKey.field name, FaultTree.leaf (Fault.missing name))) =
        (t.layout.fields.filter fun f => (t.layout.shape f).isRequired).map t.layout.key := by
    rw [Assoc.keys_map, Layout.requiredNames, List.map_map]
    rfl
  apply InOrder.merge
  · rw [hkeys]
    refine List.Pairwise.map _ (fun f g hne heq => hne ?_) (t.layout.nodup_fields.filter _)
    exact t.layout.name_injective f g (FaultKey.field.inj heq)
  · rw [hkeys]
    exact pairwise_keys hown d List.filter_sublist
  · intro c hc
    obtain ⟨name, -, rfl⟩ := List.mem_map.mp hc
    exact InOrder.leaf _

/-! ### Loaded entities -/

section

variable {types : List EntityType} {type? : List (String × Document) → Option EntityType}
  {d : Document}

/-- A member of a list or map is in order if the entity of its mapping is, since stand-ins are in
order in any case. -/
theorem InOrder.of_part {α : Type} [HasFaults α] {view : α → AnyEntity} {reader : ItemReader α}
    (hview : IsView types view) (hread : IsPartReader view reader.read type?)
    (hfallback : ∃ u ∈ types, view reader.fallback = ⟨u, Record.placeholder u.layout⟩)
    (hown : ∀ u ∈ types, ∀ g, findField? types (u.layout.name g) = some ⟨u, g⟩)
    (h : ∀ es u, d = .mapping es → type? es = some u →
      InOrder types d (Layout.loadedRecord u.readers es).faults) :
    InOrder types d (HasFaults.faults (reader.part d)) := by
  rcases ItemReader.faults_part_cases hview hread hfallback d with
    ⟨es, u, hd, hu, hfaults⟩ | ⟨e, -, u, hu, hfaults⟩
  · rw [hfaults]
    exact h es u hd hu
  · rw [hfaults]
    exact inOrder_missing (hown u hu) d _

/-- What is read into a field is in order if the entities of all mappings in its entry are. -/
theorem Shape.inOrder_loaded {s : Shape} {view : s.PartView} {reader : s.Reader}
    (hview : PartView.Lawful types s view) (hread : s.ReadsParts view reader type?)
    (hfallback : s.FallsBackTo types view reader)
    (hown : ∀ u ∈ types, ∀ g, findField? types (u.layout.name g) = some ⟨u, g⟩)
    (hd : d.WellFormed)
    (h : ∀ sub u, s.Holds d sub → type? sub = some u →
      InOrder types (.mapping sub) (Layout.loadedRecord u.readers sub).faults) :
    InOrder types d (s.faults (s.loaded reader d)) := by
  have hfault : ∀ fault, InOrder types d (FaultTree.empty.inject fault) := by
    intro fault
    have hmerge : FaultTree.empty.inject fault = .merge (some fault) [] := rfl
    rw [hmerge]
    exact InOrder.merge .nil .nil fun c hc => absurd hc List.not_mem_nil
  -- members come in the order of the document, and each brings its own tree; a single value
  -- has nothing beside it
  by_cases hs : s.IsCollection
  · cases hitems : s.items? d with
    | none =>
        rw [(loaded_of_items?_eq_none _ hs hitems).2]
        exact hfault _
    | some items =>
        have hmembers : ∀ item ∈ items, InOrder types item.2 (s.itemFaults reader item.2) := by
          intro item hitem
          have hself : ∀ es u, item.2 = .mapping es → type? es = some u →
              InOrder types item.2 (Layout.loadedRecord u.readers es).faults := by
            intro es u hes hu
            rw [hes]
            exact h es u (Or.inr ⟨items, item.1, hitems, hes ▸ hitem⟩) hu
          cases s with
          | required | optional | requiredPart | optionalPart => cases hs
          | list =>
              simp only [itemFaults, ListSlot.elementFaults, ItemReader.element]
              cases tolerantly reader.read item.2 with
              | ok a => exact InOrder.empty
              | error e => exact InOrder.leaf _
          | parts | namedParts => exact InOrder.of_part hview hread hfallback hown hself
        have hkeys : Assoc.keys (items.map fun item => (item.1, s.itemFaults reader item.2)) =
            Assoc.keys items := Assoc.keys_map_value _ items
        rw [faults_loaded reader hd hitems]
        apply InOrder.merge
        · rw [hkeys]
          exact nodup_keys_items hd hitems
        · rw [hkeys]
          exact pairwise_keys_items hitems types
        · intro c hc
          obtain ⟨item, hitem, rfl⟩ := List.mem_map.mp hc
          have htypes : typesBelow types item.1 = types := by
            rcases items?_cases hitems with ⟨ds, -, rfl⟩ | ⟨entries, -, rfl⟩ <;>
              obtain ⟨e, -, rfl⟩ := List.mem_map.mp hitem <;> rfl
          rw [htypes, under_of_mem_items hd hitems hitem]
          exact hmembers item hitem
  · cases s with
    | list | parts | namedParts => exact absurd trivial hs
    | required | optional =>
        simp only [loaded]
        cases reader d with
        | ok v => exact InOrder.empty
        | error e => exact InOrder.leaf _
    | requiredPart | optionalPart =>
        simp only [loaded]
        cases ha : tolerantly reader d with
        | ok a =>
            obtain ⟨es, u, rfl, hu, hfaults⟩ := hread.faults_of_ok hview ha
            show InOrder types _ (HasFaults.faults a)
            rw [hfaults]
            exact h es u (Or.inl rfl) hu
        | error e => exact hfault _

end

/-- The tree of an entity that is read from a mapping has its faults in the order of the mapping. -/
theorem inOrder_loadedRecord {types : List EntityType} {t : EntityType}
    (hown : ∀ f, findField? types (t.layout.name f) = some ⟨t, f⟩)
    {es : List (String × Document)} (hes : (Document.mapping es).WellFormed) :
    InOrder types (.mapping es) (Layout.loadedRecord t.readers es).faults := by
  refine induction_on_parts
    (P := fun t es => ∀ types, (∀ f, findField? types (t.layout.name f) = some ⟨t, f⟩) →
      InOrder types (.mapping es) (Layout.loadedRecord t.readers es).faults)
    (fun t es hes ih types hown => ?_) t hes types hown
  have hkeys : Assoc.keys (t.layout.fieldTrees (Layout.entryFaults t.readers es)) =
      t.layout.fields.map t.layout.key := Assoc.keys_map _ _
  -- the fields come in the order of the type, each with its tree under its own key
  rw [Layout.faults_loadedRecord]
  apply InOrder.merge
  · exact t.layout.nodup_keys_fieldTrees _
  · rw [hkeys]
    exact pairwise_keys hown _ (List.Sublist.refl _)
  · intro c hc
    obtain ⟨f, -, rfl⟩ := List.mem_map.mp hc
    have htypes : typesBelow types (t.layout.key f) = t.parts f := by
      show ((findField? types (t.layout.name f)).map _).getD [] = _
      rw [hown f]
      rfl
    rw [htypes]
    show InOrder (t.parts f) _ (Layout.entryFaults t.readers es f)
    unfold Layout.entryFaults
    cases hpresent : Document.present? (t.layout.name f) es with
    | none =>
        simp only []
        split
        · exact InOrder.leaf _
        · exact InOrder.empty
    | some d =>
        have hget : Assoc.get? (t.layout.name f) es = some d :=
          (Option.filter_eq_some_iff.mp hpresent).1
        have hunder : (Document.mapping es).under (t.layout.key f) = d := by
          show (Assoc.get? (t.layout.name f) es).getD .null = d
          rw [hget]
          rfl
        rw [hunder]
        exact Shape.inOrder_loaded (t.partView_lawful f) (t.readsParts f) (t.fallsBackTo f)
          (fun u hu => t.findField?_parts f hu)
          ((Document.wellFormed_mapping.mp hes).2 _ (Document.mem_of_present? hpresent))
          fun sub u hholds hu => ih f d sub u hpresent hholds hu (t.parts f)
            (t.findField?_parts f (List.mem_of_find?_eq_some hu))

/-! ### Diagnostics -/

/-- The tolerant load of a mapping succeeds. Its diagnostics are the faults of the workflow's tree:
as many as are counted there, one for each fault that stands at some path, and no path has two. They
come in the order of the document. -/
theorem diagnostics_in_document_order (source : String) {entries : List (String × Document)}
    (h : (Document.mapping entries).WellFormed) :
    ∃ l, LoadOptions.loadDocument ⟨source, .tolerant⟩ (.mapping entries) = .ok l ∧
      l.diagnostics.length = l.workflow.faults.len ∧
      l.diagnostics = l.workflow.faults.faults.map (fun e =>
        ⟨e.2.code, source, .path e.1, e.2.message⟩) ∧
      (∀ p fault, (p, fault) ∈ l.workflow.faults.faults ↔
        (l.workflow.faults.at? p).bind FaultTree.fault? = some fault) ∧
      (l.workflow.faults.faults.map (·.1)).Nodup ∧
      (l.workflow.faults.faults.map (·.1)).Pairwise
        (FaultPath.Precedes [.workflow] (.mapping entries)) := by
  obtain ⟨w, hw, hload⟩ := LoadOptions.loadDocument_tolerant source entries
  rw [Workflow.read_tolerant] at hw
  cases hw
  have horder : InOrder [.workflow] (.mapping entries)
      (Layout.loadedRecord Workflow.readers entries).faults :=
    inOrder_loadedRecord EntityType.workflow.owns.findField?_eq h
  refine ⟨_, hload, ?_, rfl, ?_, ?_, ?_⟩
  · show (FaultTree.diagnostics source _).length = _
    rw [FaultTree.diagnostics, List.length_map, FaultTree.length_faults]
  · intro p fault
    exact FaultTree.mem_faults_iff horder.canonical p fault
  · refine horder.ordered.imp fun {p q} hpq => ?_
    rintro rfl
    exact hpq.not_symm h hpq
  · exact horder.ordered

/-- The two gaps of a node come before what is wrong in its settings. -/
theorem diagnostics_in_document_order_nestedFault :
    (Document.mapping LoadOptions.nestedFault).WellFormed ∧
    ∃ l, LoadOptions.loadDocument ⟨"w", .tolerant⟩ (.mapping LoadOptions.nestedFault) = .ok l ∧
      l.diagnostics.map (fun d => (d.position, d.message)) =
        [(.path [.field "nodes", .key "n", .field "id"], "required field 'id' is missing"),
          (.path [.field "nodes", .key "n", .field "name"], "required field 'name' is missing"),
          (.path nestedFaultPath, "expected scalar, found sequence")] ∧
      l.diagnostics.length = l.workflow.faults.len ∧
      l.diagnostics = l.workflow.faults.faults.map (fun e =>
        ⟨e.2.code, "w", .path e.1, e.2.message⟩) ∧
      (∀ p fault, (p, fault) ∈ l.workflow.faults.faults ↔
        (l.workflow.faults.at? p).bind FaultTree.fault? = some fault) ∧
      (l.workflow.faults.faults.map (·.1)).Nodup ∧
      (l.workflow.faults.faults.map (·.1)).Pairwise
        (FaultPath.Precedes [.workflow] (.mapping LoadOptions.nestedFault)) := by
  obtain ⟨l, hl, horder⟩ := diagnostics_in_document_order "w" LoadOptions.wellFormed_nestedFault
  refine ⟨LoadOptions.wellFormed_nestedFault, l, hl, ?_, horder⟩
  obtain rfl := Except.ok.inj hl
  decide +kernel

end Flowsheet
