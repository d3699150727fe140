import Flowsheet.Proofs.Build.Copy
import Flowsheet.Proofs.Reading.Roles

/-!
# Nulls in points and configurations

A null counts as absent in every field of an entity, but points and configurations look their keys
up by themselves. There a null counts as an entry, and removing it changes what is loaded, with two
exceptions (`Role.Overlooks`): a point without an `x` is reported for that, whatever its `y`, and a
configuration with children is a map, whatever its value.

That an overlooked null makes no difference is a matter of mappings that are alike. The converse
goes down the path: what is loaded from a mapping determines what is loaded from each mapping below
it (`LeadsTo.loadedAlike`), since an entity that was read has no fault of its own while a stand-in
has one.
-/

namespace Flowsheet

open EntityType

/-! ### What a mapping is loaded as -/

namespace Role

/-- The entity that a mapping is read as. -/
def loadedAs? (types : List EntityType) (es : List (String × Document)) : Option AnyEntity :=
  (type? types es).map fun t => ⟨t, Layout.loadedRecord t.readers es⟩

/-- Two mappings that tolerant reading makes the same of. -/
def LoadedAlike : Role → List (String × Document) → List (String × Document) → Prop
  | entity types, es, es' => loadedAs? types es = loadedAs? types es'
  | point, es, es' => (Document.mapping es).asCoordinate = (Document.mapping es').asCoordinate

/-- The null under a key of a point or a configuration has no say in what is read. -/
def Overlooks : Role → String → List (String × Document) → Prop
  | point, name, es => name = "y" ∧ Assoc.get? "x" es = none
  | entity _, name, es => name = "value" ∧ Assoc.contains "children" es = true

/-- A mapping with an entry for a field that holds mappings is of the type that has the field. -/
def Recognizes : Role → Prop
  | entity types => ∀ t ∈ types, ∀ (f : t.layout.Field) (es : List (String × Document)),
    (t.layout.shape f).IsSingle ∨ (t.layout.shape f).IsCollection →
      Assoc.contains (t.layout.name f) es = true → type? types es = some t
  | point => True

end Role

/-- Where only one type of entity can stand, every mapping is of it. -/
theorem EntityType.recognizes_of_singleton {t : EntityType} (h : ∀ es, t.accepts es = true) :
    (Role.entity [t]).Recognizes := by
  intro u hu f es _ _
  obtain rfl := List.mem_singleton.mp hu
  exact List.find?_cons_of_pos (h es)

/-- A configuration with an entry for its children is a map, also if it has one for a value. -/
theorem EntityType.recognizes_config : (Role.entity [configMap, configValue]).Recognizes := by
  intro u hu f es hholds hget
  rcases List.mem_cons.mp hu with rfl | hu
  · cases f
    exact List.find?_cons_of_pos hget
  · obtain rfl := List.mem_singleton.mp hu
    cases f
    rcases hholds with h | h <;> cases h

/-- The parts of every field are told by their fields that hold mappings. -/
theorem EntityType.recognizes_role (t : EntityType) (f : t.layout.Field) :
    (t.role f).Recognizes := by
  have hentity : (Role.entity (t.parts f)).Recognizes := by
    rcases t.parts_cases f with hparts | ⟨u, hparts, haccepts⟩ | hparts
    · rw [hparts]
      exact fun u hu => absurd hu List.not_mem_nil
    · rw [hparts]
      exact recognizes_of_singleton haccepts
    · rw [hparts]
      exact recognizes_config
  unfold role
  cases t.layout.shape f with
  | list => trivial
  | required | optional | requiredPart | optionalPart | parts | namedParts => exact hentity

/-! ### One part -/

section

variable {α : Type} {types : List EntityType} {view : α → AnyEntity}
  {read : BuildMode → Document → Reading α} {es es' : List (String × Document)}

/-- A mapping is read as the entity that it is, or not at all. -/
theorem IsPartReader.loadedAs?_cases (h : IsPartReader view read (Role.type? types))
    (es : List (String × Document)) :
    (∃ a, tolerantly read (.mapping es) = .ok a ∧ Role.loadedAs? types es = some (view a)) ∨
      ∃ e, tolerantly read (.mapping es) = .error e ∧ Role.loadedAs? types es = none := by
  unfold Role.loadedAs?
  cases ha : tolerantly read (.mapping es) with
  | ok a =>
      obtain ⟨_, u, heq, hu, hentity⟩ := h.view_of_ok ha
      cases heq
      refine Or.inl ⟨a, rfl, ?_⟩
      rw [hu, hentity]
      rfl
  | error e =>
      refine Or.inr ⟨e, rfl, ?_⟩
      cases hu : Role.type? types es with
      | none => rfl
      | some u =>
          obtain ⟨a, ha', -⟩ := h.read_mapping es u hu
          rw [ha] at ha'
          cases ha'

/-- Single parts that come out the same are the same entities. -/
theorem IsPartReader.loadedAs?_of_single (h : IsPartReader view read (Role.type? types))
    (heq : (tolerantly read (.mapping es)).toOption = (tolerantly read (.mapping es')).toOption) :
    Role.loadedAs? types es = Role.loadedAs? types es' := by
  rcases h.loadedAs?_cases es with ⟨a, ha, hes⟩ | ⟨e, he, hes⟩ <;>
    rcases h.loadedAs?_cases es' with ⟨a', ha', hes'⟩ | ⟨e', he', hes'⟩
  · rw [ha, ha'] at heq
    cases heq
    rw [hes, hes']
  · rw [ha, he'] at heq
    cases heq
  · rw [he, ha'] at heq
    cases heq
  · rw [hes, hes']

variable [HasFaults α]

/-- An entity that was read has no fault of its own. -/
theorem IsPartReader.selfFault?_eq_none (h : IsPartReader view read (Role.type? types))
    (hview : IsView types view) {d : Document} {a : α} (ha : tolerantly read d = .ok a) :
    (HasFaults.faults a).selfFault? = none := by
  obtain ⟨_, u, -, -, hfaults⟩ := h.faults_of_ok hview ha
  rw [hfaults, Layout.faults_loadedRecord]
  exact FaultTree.selfFault?_merge _ _

/-- Members of lists and maps that come out the same are the same entities, since a stand-in has a
fault of its own. -/
theorem IsPartReader.loadedAs?_of_part {reader : ItemReader α}
    (h : IsPartReader view reader.read (Role.type? types)) (hview : IsView types view)
    (heq : reader.part (.mapping es) = reader.part (.mapping es')) :
    Role.loadedAs? types es = Role.loadedAs? types es' := by
  have hmark : ∀ fault (a : α),
      (HasFaults.faults (HasFaults.mark fault a)).selfFault? = some fault := by
    intro fault a
    rw [HasFaults.faults_mark]
    exact FaultTree.selfFault?_inject _ _
  have hapart : ∀ {es} {a : α} {fault}, tolerantly reader.read (.mapping es) = .ok a →
      a ≠ HasFaults.mark fault reader.fallback := by
    rintro es a fault ha rfl
    have hself := h.selfFault?_eq_none hview ha
    rw [hmark] at hself
    cases hself
  unfold ItemReader.part at heq
  -- equal stand-ins say nothing about the entries, but then neither mapping has a type
  rcases h.loadedAs?_cases es with ⟨a, ha, hes⟩ | ⟨e, he, hes⟩ <;>
    rcases h.loadedAs?_cases es' with ⟨a', ha', hes'⟩ | ⟨e', he', hes'⟩
  · rw [ha, ha'] at heq
    obtain rfl : a = a' := heq
    rw [hes, hes']
  · rw [ha, he'] at heq
    exact absurd heq (hapart ha)
  · rw [he, ha'] at heq
    exact absurd heq.symm (hapart ha')
  · rw [hes, hes']

end

/-! ### One field -/

namespace Shape

variable {s : Shape} {reader : s.Reader} {key : FaultKey} {d d' x x' : Document}

/-- Two documents that leave the same in a field. -/
def LoadsSame (s : Shape) (reader : s.Reader) (d d' : Document) : Prop :=
  s.content (s.loaded reader d) = s.content (s.loaded reader d') ∧
    s.faults (s.loaded reader d) = s.faults (s.loaded reader d')

/-- What stands under the key of an element is a member. -/
theorem mem_items_of_child? (hkey : s.HasElement key) (h : d.child? key = some x) :
    ∃ items, s.items? d = some items ∧ (key, x) ∈ items := by
  cases s with
  | required | optional | requiredPart | optionalPart => cases key <;> cases hkey
  | list | parts =>
      cases key with
      | field | key | prior => cases hkey
      | index i =>
          cases d with
          | sequence items =>
              exact ⟨_, rfl, List.mem_map.mpr ⟨(x, i), List.mem_zipIdx_iff_getElem?.mpr h, rfl⟩⟩
          | null | bool | integer | float | string | mapping => cases h
  | namedParts =>
      cases key with
      | field | index | prior => cases hkey
      | key name =>
          cases d with
          | mapping entries =>
              exact ⟨_, rfl, List.mem_map.mpr ⟨(name, x), Assoc.mem_of_get?_eq_some h, rfl⟩⟩
          | null | bool | integer | float | string | sequence => cases h

/-- Lists or maps that leave the same have elements that leave the same. -/
theorem LoadsSame.element (h : s.LoadsSame reader d d') (hd : d.WellFormed) (hd' : d'.WellFormed)
    (hkey : s.HasElement key) (hx : d.child? key = some x) (hx' : d'.child? key = some x') :
    s.readItem reader x = s.readItem reader x' ∧
      s.itemFaults reader x = s.itemFaults reader x' := by
  obtain ⟨items, hitems, hmem⟩ := mem_items_of_child? hkey hx
  obtain ⟨items', hitems', hmem'⟩ := mem_items_of_child? hkey hx'
  constructor
  · have hget := get?_elements_loaded reader hd hitems hmem
    rw [h.1, get?_elements_loaded reader hd' hitems' hmem'] at hget
    exact (Option.some.inj hget).symm
  · rw [← child?_faults_loaded reader hd hitems hmem,
      ← child?_faults_loaded reader hd' hitems' hmem', h.2]

/-- The elements of a plain list are points. -/
def ReadsPoints : (s : Shape) → s.Reader → Prop
  | list _, reader => ∀ es es',
    tolerantly reader.read (.mapping es) = tolerantly reader.read (.mapping es') →
      (Document.mapping es).asCoordinate = (Document.mapping es').asCoordinate
  | required _, _ | optional _, _ | @requiredPart _ _, _ | @optionalPart _ _, _
  | @parts _ _, _ | @namedParts _ _, _ => True

variable {types : List EntityType} {view : s.PartView} {es es' : List (String × Document)}

/-- Single parts that leave the same are loaded alike. -/
theorem LoadsSame.part_alike (h : s.LoadsSame reader (.mapping es) (.mapping es'))
    (hs : s.IsSingle) (hread : s.ReadsParts view reader (Role.type? types)) :
    (s.role types).LoadedAlike es es' := by
  have hcontent : ∀ {α : Type} [HasFaults α] (read : BuildMode → Document → Reading α) (d),
      (requiredPart α).content ((requiredPart α).loaded read d) =
        (tolerantly read d).toOption := by
    intro α _ read d
    simp only [loaded]
    cases tolerantly read d <;> rfl
  cases s with
  | required | optional | list | parts | namedParts => cases hs
  | requiredPart | optionalPart =>
      refine hread.loadedAs?_of_single ?_
      rw [← hcontent reader, ← hcontent reader]
      exact h.1

/-- Elements that leave the same are loaded alike. -/
theorem LoadsSame.element_alike (h : s.LoadsSame reader d d') (hd : d.WellFormed)
    (hd' : d'.WellFormed) (hkey : s.HasElement key) (hx : d.child? key = some (.mapping es))
    (hx' : d'.child? key = some (.mapping es')) (hview : PartView.Lawful types s view)
    (hread : s.ReadsParts view reader (Role.type? types)) (hpoints : s.ReadsPoints reader) :
    (s.role types).LoadedAlike es es' := by
  obtain ⟨hitem, hfaults⟩ := h.element hd hd' hkey hx hx'
  cases s with
  | required | optional | requiredPart | optionalPart => cases key <;> cases hkey
  | parts | namedParts => exact hread.loadedAs?_of_part hview hitem
  | list =>
      refine hpoints es es' ?_
      simp only [readItem, itemFaults, ItemReader.element, ListSlot.elementFaults] at hitem hfaults
      cases hes : tolerantly reader.read (.mapping es) with
      | ok a =>
          cases hes' : tolerantly reader.read (.mapping es') with
          | ok a' =>
              rw [hes, hes'] at hitem
              exact congrArg Except.ok hitem
          | error e' =>
              rw [hes, hes'] at hfaults
              cases hfaults
      | error e =>
          cases hes' : tolerantly reader.read (.mapping es') with
          | ok a' =>
              rw [hes, hes'] at hfaults
              cases hfaults
          | error e' =>
              rw [hes, hes'] at hfaults
              cases hfaults
              rfl

end Shape

/-- The only plain list, that of bend points, has points for its elements. -/
theorem EntityType.readsPoints (t : EntityType) (f : t.layout.Field) :
    (t.layout.shape f).ReadsPoints (t.readers f) := by
  cases t with
  | connection =>
      cases f with
      | bendPoints => exact fun es es' h => h
      | sourceId | sourcePort | destId | destPort | deletable => trivial
  | workflow | node | bounds | port | annotation | configMap | configValue => cases f <;> trivial

/-! ### Down the path -/

/-- Records that are the same have fields that are the same. -/
theorem Layout.loadsSame_of_loadedRecord {t : EntityType} {readers : t.layout.Readers}
    {es es' : List (String × Document)} (h : loadedRecord readers es = loadedRecord readers es')
    {f : t.layout.Field} {d d' : Document} (hd : Assoc.get? (t.layout.name f) es = some d)
    (hnull : d.isNull = false) (hd' : Assoc.get? (t.layout.name f) es' = some d')
    (hnull' : d'.isNull = false) : (t.layout.shape f).LoadsSame (readers f) d d' := by
  constructor
  · rw [← get_loadedRecord hd hnull, ← get_loadedRecord hd' hnull', h]
  · rw [← subtree_loadedRecord hd hnull, ← subtree_loadedRecord hd' hnull', h]

/-- Mappings that are loaded alike leave the same in a field that holds mappings. -/
theorem Role.LoadedAlike.loadsSame {types : List EntityType} {es es' : List (String × Document)}
    (h : (entity types).LoadedAlike es es') (htypes : (entity types).Recognizes) {t : EntityType}
    (ht : t ∈ types) {f : t.layout.Field}
    (hholds : (t.layout.shape f).IsSingle ∨ (t.layout.shape f).IsCollection) {d d' : Document}
    (hd : Assoc.get? (t.layout.name f) es = some d) (hnull : d.isNull = false)
    (hd' : Assoc.get? (t.layout.name f) es' = some d') (hnull' : d'.isNull = false) :
    (t.layout.shape f).LoadsSame (t.readers f) d d' := by
  have htype : type? types es = some t :=
    htypes t ht f es hholds (by rw [Assoc.contains, hd, Option.isSome_some])
  have htype' : type? types es' = some t :=
    htypes t ht f es' hholds (by rw [Assoc.contains, hd', Option.isSome_some])
  have hentity : loadedAs? types es = loadedAs? types es' := h
  unfold loadedAs? at hentity
  rw [htype, htype'] at hentity
  have hrecord : Layout.loadedRecord t.readers es = Layout.loadedRecord t.readers es' := by
    simpa using hentity
  exact Layout.loadsSame_of_loadedRecord hrecord hd hnull hd' hnull'

/-- Only lists and maps have elements. -/
theorem Shape.isCollection_of_hasElement {s : Shape} {key : FaultKey} (h : s.HasElement key) :
    s.IsCollection := by
  cases s with
  | list | parts | namedParts => trivial
  | required | optional | requiredPart | optionalPart => cases key <;> cases h

/-- If the roots of two documents are loaded alike, so are the mappings by which they differ. -/
theorem LeadsTo.loadedAlike {r r' : Role} {p : FaultPath} (hp : LeadsTo r p r')
    (hr : r.Recognizes) {es es' : List (String × Document)} {d d' : Document} (hd : d.WellFormed)
    (hd' : d'.WellFormed) (hat : d.at? p = some (.mapping es))
    (hreplace : d.replace? p (.mapping es') = some d') :
    ∃ ds ds', d = .mapping ds ∧ d' = .mapping ds' ∧
      (r.LoadedAlike ds ds' → r'.LoadedAlike es es') := by
  -- the implication is composed from the end of the path to its start
  induction hp generalizing d d' with
  | here r =>
      obtain rfl : d = .mapping es := Option.some.inj ((Document.at?_nil d).symm.trans hat)
      cases hreplace
      exact ⟨es, es', rfl, rfl, id⟩
  | @part types t f rest r ht hsingle hrest ih =>
      obtain ⟨ds, _, _, rfl, _, _, rfl⟩ := Document.replace?_mapping (Or.inl hreplace)
      obtain ⟨e, e', hget, hbelow, -, hget'⟩ := Document.replace?_cons hreplace
      rw [Document.at?_cons_of_child? hget] at hat
      obtain ⟨sub, sub', rfl, rfl, hsub⟩ :=
        ih (t.recognizes_role f) (hd.child? hget) (hd'.child? hget') hat hbelow
      refine ⟨ds, _, rfl, rfl, fun h => hsub ?_⟩
      exact (h.loadsSame hr ht (Or.inl hsingle) hget rfl hget' rfl).part_alike hsingle
        (t.readsParts f)
  | @element types t f key rest r ht hkey hrest ih =>
      obtain ⟨ds, _, _, rfl, _, _, rfl⟩ := Document.replace?_mapping (Or.inl hreplace)
      obtain ⟨e, e', hget, hfield, -, hget'⟩ := Document.replace?_cons hreplace
      obtain ⟨x, x', hx, hbelow, -, hx'⟩ := Document.replace?_cons hfield
      have he := hd.child? hget
      have he' := hd'.child? hget'
      rw [Document.at?_cons_of_child? hget, Document.at?_cons_of_child? hx] at hat
      obtain ⟨sub, sub', rfl, rfl, hsub⟩ :=
        ih (t.recognizes_role f) (he.child? hx) (he'.child? hx') hat hbelow
      obtain ⟨hnull, hnull'⟩ := Document.isNull_eq_false_of_replace? hfield
      refine ⟨ds, _, rfl, rfl, fun h => hsub ?_⟩
      exact (h.loadsSame hr ht (Or.inr (Shape.isCollection_of_hasElement hkey)) hget hnull hget'
        hnull').element_alike he he' hkey hx hx' (t.partView_lawful f) (t.readsParts f)
          (t.readsPoints f)

/-- What a workflow is loaded as determines what its document is loaded as. -/
theorem LoadOptions.loadedAlike_of_load {source : String} {ds ds' : List (String × Document)}
    (h : loadDocument ⟨source, .tolerant⟩ (.mapping ds) =
      loadDocument ⟨source, .tolerant⟩ (.mapping ds')) :
    (Role.entity [workflow]).LoadedAlike ds ds' := by
  rw [loadDocument_mapping, loadDocument_mapping, Workflow.read_tolerant,
    Workflow.read_tolerant] at h
  have hworkflow : (Entity.ofRecord (Layout.loadedRecord Workflow.readers ds) : Workflow) =
      Entity.ofRecord (Layout.loadedRecord Workflow.readers ds') :=
    congrArg Loaded.workflow (Except.ok.inj h)
  have hrecord := congrArg Entity.toRecord hworkflow
  rw [Entity.toRecord_ofRecord, Entity.toRecord_ofRecord] at hrecord
  exact congrArg (fun r => some (⟨workflow, r⟩ : AnyEntity)) hrecord

/-! ### Removed nulls -/

/-- Other values that are well-formed keep a document well-formed. -/
theorem Document.WellFormed.replace? {d value d' : Document} {p : FaultPath} (hd : d.WellFormed)
    (hvalue : value.WellFormed) (h : d.replace? p value = some d') : d'.WellFormed := by
  induction p generalizing d d' with
  | nil =>
      have hnil : d.replace? [] value = some value := by cases d <;> rfl
      rw [hnil] at h
      cases h
      exact hvalue
  | cons key rest ih =>
      have hentries : ∀ name entries (e e' : Document), (mapping entries).WellFormed →
          Assoc.get? name entries = some e → e.replace? rest value = some e' →
            (mapping (Assoc.insert name e' entries)).WellFormed := by
        intro name entries e e' hentries hget he'
        obtain ⟨hkeys, hvalues⟩ := wellFormed_mapping.mp hentries
        refine wellFormed_mapping.mpr ⟨Assoc.nodup_keys_insert hkeys, fun entry hentry => ?_⟩
        rcases Assoc.mem_of_mem_insert hentry with rfl | hold
        · exact ih (hvalues _ (Assoc.mem_of_get?_eq_some hget)) he'
        · exact hvalues entry hold
      cases key with
      | field name =>
          obtain ⟨entries, e, e', rfl, hget, he', rfl⟩ := replace?_mapping (Or.inl h)
          exact hentries name entries e e' hd hget he'
      | key name =>
          obtain ⟨entries, e, e', rfl, hget, he', rfl⟩ := replace?_mapping (Or.inr h)
          exact hentries name entries e e' hd hget he'
      | index i =>
          obtain ⟨items, e, e', rfl, hget, he', rfl⟩ := replace?_sequence h
          have hitems := wellFormed_sequence.mp hd
          refine wellFormed_sequence.mpr fun item hitem => ?_
          rcases List.mem_or_eq_of_mem_set hitem with hold | rfl
          · exact hitems item hold
          · exact ih (hitems e (List.mem_of_getElem? hget)) he'
      | prior => cases d <;> cases h

/-- A mapping without one of its keys is well-formed if it was before. -/
theorem Document.WellFormed.erase {es : List (String × Document)}
    (h : (Document.mapping es).WellFormed) (name : String) :
    (Document.mapping (Assoc.erase name es)).WellFormed := by
  obtain ⟨hkeys, hvalues⟩ := wellFormed_mapping.mp h
  exact wellFormed_mapping.mpr ⟨Assoc.nodup_keys_filter _ hkeys,
    fun entry hentry => hvalues entry (List.mem_filter.mp hentry).1⟩

namespace Role

variable {es : List (String × Document)} {name : String}

/-- Without a null that is overlooked a mapping is read as before. -/
theorem Overlooks.alike {r : Role} (hr : r = point ∨ r = entity [configMap, configValue])
    (h : r.Overlooks name es) : r.Alike es (Assoc.erase name es) := by
  rcases hr with rfl | rfl
  · obtain ⟨rfl, hx⟩ := h
    have hx' : Assoc.get? "x" (Assoc.erase "y" es) = none := by
      rw [Assoc.get?_erase, if_neg (by decide), hx]
    exact (Document.asCoordinate_of_no_x hx).trans (Document.asCoordinate_of_no_x hx').symm
  · obtain ⟨rfl, hchildren⟩ := h
    -- with children on both sides both are maps, and maps have no other field
    have hsame : Assoc.get? "children" (Assoc.erase "value" es) = Assoc.get? "children" es := by
      rw [Assoc.get?_erase, if_neg (by decide)]
    have hmap : type? [configMap, configValue] es = some configMap :=
      List.find?_cons_of_pos hchildren
    have hmap' : type? [configMap, configValue] (Assoc.erase "value" es) = some configMap :=
      List.find?_cons_of_pos ((congrArg Option.isSome hsame).trans hchildren)
    refine ⟨hmap.trans hmap'.symm, fun t ht => ?_⟩
    obtain rfl := Option.some.inj (hmap.symm.trans ht)
    funext b f
    cases f
    have hpresent : Document.present? "children" (Assoc.erase "value" es) =
        Document.present? "children" es := congrArg (Option.filter _) hsame
    unfold Builder.readField
    rw [show Document.present? (configMap.layout.name .children) (Assoc.erase "value" es) =
      Document.present? (configMap.layout.name .children) es from hpresent]

/-- A point that is read the same without a null has overlooked it. -/
theorem overlooks_point (hname : point.HasKey name) (hnull : Assoc.get? name es = some .null)
    (h : point.LoadedAlike es (Assoc.erase name es)) : point.Overlooks name es := by
  have hsame : (Document.mapping es).asCoordinate =
      (Document.mapping (Assoc.erase name es)).asCoordinate := h
  rcases hname with rfl | rfl
  · have hx : Assoc.get? "x" (Assoc.erase "x" es) = none := by
      rw [Assoc.get?_erase, if_pos rfl]
    rw [Document.asCoordinate_of_no_x hx] at hsame
    cases hy : Assoc.get? "y" es with
    | none =>
        rw [Document.asCoordinate_of_no_y hnull hy] at hsame
        exact absurd (FieldError.missing.inj (Except.error.inj hsame)) (by decide)
    | some y =>
        rw [Document.asCoordinate_of_both hnull hy] at hsame
        exact absurd hsame (Document.pair_ne_missing _ _ _)
  · cases hx : Assoc.get? "x" es with
    | none => exact ⟨rfl, hx⟩
    | some x =>
        have hx' : Assoc.get? "x" (Assoc.erase "y" es) = some x := by
          rw [Assoc.get?_erase, if_neg (by decide), hx]
        have hy : Assoc.get? "y" (Assoc.erase "y" es) = none := by
          rw [Assoc.get?_erase, if_pos rfl]
        rw [Document.asCoordinate_of_no_y hx' hy, Document.asCoordinate_of_both hx hnull] at hsame
        exact absurd hsame (Document.pair_ne_missing _ _ _)

/-- So has a configuration. -/
theorem overlooks_config (hname : (entity [configMap, configValue]).HasKey name)
    (hnull : Assoc.get? name es = some .null)
    (h : (entity [configMap, configValue]).LoadedAlike es (Assoc.erase name es)) :
    (entity [configMap, configValue]).Overlooks name es := by
  have htype : type? [configMap, configValue] es =
      type? [configMap, configValue] (Assoc.erase name es) := by
    have hfst := congrArg (Option.map Sigma.fst) h
    unfold loadedAs? at hfst
    rw [Option.map_map, Option.map_map] at hfst
    simpa [Function.comp_def] using hfst
  have hgone : ∀ u : EntityType, u.accepts (Assoc.erase name es) = false →
      type? [configMap, configValue] es ≠ some u := by
    intro u hu hes
    rw [htype] at hes
    exact Bool.false_ne_true (hu.symm.trans (accepts_of_type? hes))
  have herased : Assoc.contains name (Assoc.erase name es) = false := by
    rw [Assoc.contains, Assoc.get?_erase, if_pos rfl, Option.isSome_none]
  have hthere : Assoc.contains name es = true := by
    rw [Assoc.contains, hnull, Option.isSome_some]
  -- the type stays the same, so the key that is taken out is not the one that decides on it
  obtain ⟨t, ht, f, rfl⟩ := hname
  rcases List.mem_cons.mp ht with rfl | ht
  · cases f
    exact absurd ((Config.type?_eq es).trans (if_pos hthere)) (hgone configMap herased)
  · obtain rfl := List.mem_singleton.mp ht
    cases f
    cases hchildren : Assoc.contains "children" es with
    | true => exact ⟨rfl, hchildren⟩
    | false =>
        have hvalue : type? [configMap, configValue] es = some configValue :=
          (Config.type?_eq es).trans
            ((if_neg (Bool.eq_false_iff.mp hchildren)).trans (if_pos hthere))
        exact absurd hvalue (hgone configValue herased)

end Role

/-- Removing a null from a point or a configuration in a document leaves the tolerant load as it is
just if the null is overlooked: it is the `y` of a point without an `x`, or the value of a
configuration with children. -/
theorem load_without_null_iff (source : String) {entries : List (String × Document)}
    (h : (Document.mapping entries).WellFormed) {p : FaultPath} {r : Role}
    (hp : LeadsTo (.entity [.workflow]) p r)
    (hr : r = .point ∨ r = .entity [configMap, configValue]) {es : List (String × Document)}
    (hat : (Document.mapping entries).at? p = some (.mapping es)) {name : String}
    (hname : r.HasKey name) (hnull : Assoc.get? name es = some .null) {d' : Document}
    (herase : (Document.mapping entries).replace? p (.mapping (Assoc.erase name es)) = some d') :
    LoadOptions.loadDocument ⟨source, .tolerant⟩ (.mapping entries) =
      LoadOptions.loadDocument ⟨source, .tolerant⟩ d' ↔ r.Overlooks name es := by
  constructor
  · intro hload
    have hwf : (Document.mapping es).WellFormed := h.at? hat
    obtain ⟨ds, ds', hds, rfl, halike⟩ := hp.loadedAlike (recognizes_of_singleton fun _ => rfl) h
      (h.replace? (hwf.erase name) herase) hat herase
    cases hds
    have hsame := halike (LoadOptions.loadedAlike_of_load hload)
    rcases hr with rfl | rfl
    · exact Role.overlooks_point hname hnull hsame
    · exact Role.overlooks_config hname hnull hsame
  · intro hoverlooks
    obtain ⟨ds, ds', hds, rfl, halike⟩ :=
      hp.alike distinct_workflow (hoverlooks.alike hr) hat herase
    cases hds
    exact LoadOptions.loadDocument_of_alike _ halike

/-- A workflow with a node that has settings. -/
def settingsFlow (settings : List (String × Document)) : List (String × Document) :=
  [("nodes", .mapping [("n", .mapping [("model_settings", .mapping settings)])])]

/-- Where the settings of `settingsFlow` stand. -/
def settingsPath : FaultPath := [.field "nodes", .key "n", .field "model_settings"]

/-- The path leads through a node to an entry of its settings. -/
theorem leadsTo_settingsPath :
    LeadsTo (.entity [.workflow]) settingsPath (.entity [configMap, configValue]) :=
  .element (t := .workflow) (f := .nodes) List.mem_cons_self trivial
    (.part (t := .node) (f := .modelSettings) List.mem_cons_self trivial (.here _))

/-- The `x` of a point counts if it is null, its `y` does not if there is no `x`; and null children
beside a value count. -/
theorem load_without_null_iff_pointFlow :
    LoadOptions.loadDocument ⟨"w", .tolerant⟩
        (.mapping (pointFlow [("x", .null), ("y", .integer 2)])) ≠
      LoadOptions.loadDocument ⟨"w", .tolerant⟩ (.mapping (pointFlow [("y", .integer 2)])) ∧
    LoadOptions.loadDocument ⟨"w", .tolerant⟩ (.mapping (pointFlow [("y", .null)])) =
      LoadOptions.loadDocument ⟨"w", .tolerant⟩ (.mapping (pointFlow [])) ∧
    LoadOptions.loadDocument ⟨"w", .tolerant⟩
        (.mapping (settingsFlow [("children", .null), ("value", .integer 1)])) ≠
      LoadOptions.loadDocument ⟨"w", .tolerant⟩
        (.mapping (settingsFlow [("value", .integer 1)])) := by
  have hpoint : ∀ point name d', (Document.mapping point).WellFormed → Role.point.HasKey name →
      Assoc.get? name point = some .null →
      (Document.mapping (pointFlow point)).replace? pointPath
        (.mapping (Assoc.erase name point)) = some d' →
      (LoadOptions.loadDocument ⟨"w", .tolerant⟩ (.mapping (pointFlow point)) =
        LoadOptions.loadDocument ⟨"w", .tolerant⟩ d' ↔ Role.point.Overlooks name point) := by
    intro point name d' hwf hname hnull herase
    have hflow : (Document.mapping (pointFlow point)).WellFormed := by
      simpa [pointFlow, Document.WellFormed, Document.WellFormedEntries,
        Document.WellFormedItems, Assoc.keys] using hwf
    exact load_without_null_iff "w" hflow leadsTo_pointPath (Or.inl rfl) rfl hname hnull herase
  refine ⟨fun h => ?_, ?_, fun h => ?_⟩
  · have hwf : (Document.mapping [("x", .null), ("y", .integer 2)]).WellFormed := by
      simp [Document.WellFormed, Document.WellFormedEntries, Assoc.keys]
    exact absurd ((hpoint _ "x" _ hwf (Or.inl rfl) rfl rfl).mp h).1 (by decide)
  · have hwf : (Document.mapping [("y", .null)]).WellFormed := by
      simp [Document.WellFormed, Document.WellFormedEntries, Assoc.keys]
    exact (hpoint _ "y" _ hwf (Or.inr rfl) rfl rfl).mpr ⟨rfl, rfl⟩
  · have hwf : (Document.mapping (settingsFlow
        [("children", .null), ("value", .integer 1)])).WellFormed := by
      simp [settingsFlow, Document.WellFormed, Document.WellFormedEntries, Assoc.keys]
    have hname : (Role.entity [configMap, configValue]).HasKey "children" :=
      ⟨configMap, List.mem_cons_self, .children, rfl⟩
    have hoverlooks := (load_without_null_iff "w" hwf leadsTo_settingsPath (Or.inr rfl) rfl hname
      rfl rfl).mp h
    exact absurd hoverlooks.1 (by decide)

/-- Nulls do not count as absent everywhere: a point with a null for its `x` is reported for the
null, and one without an `x` for the missing number. -/
theorem not_null_is_absent :
    ¬ ∀ (entries : List (String × Document)) (p : FaultPath) (r : Role)
      (es : List (String × Document)) (name : String) (d' : Document),
      (Document.mapping entries).WellFormed → LeadsTo (.entity [.workflow]) p r →
      (r = .point ∨ r = .entity [configMap, configValue]) →
      (Document.mapping entries).at? p = some (.mapping es) → r.HasKey name →
      Assoc.get? name es = some .null →
      (Document.mapping entries).replace? p (.mapping (Assoc.erase name es)) = some d' →
      LoadOptions.loadDocument ⟨"w", .tolerant⟩ (.mapping entries) =
        LoadOptions.loadDocument ⟨"w", .tolerant⟩ d' := by
  intro hclaim
  have hload := hclaim (pointFlow [("x", .null), ("y", .integer 2)]) pointPath .point _ "x" _
    (by simp [pointFlow, Document.WellFormed, Document.WellFormedEntries,
      Document.WellFormedItems, Assoc.keys])
    leadsTo_pointPath (Or.inl rfl) rfl (Or.inl rfl) rfl rfl
  have hcodes := congrArg (fun run => run.toOption.map fun l => l.diagnostics.map (·.code)) hload
  exact absurd hcodes (by decide)

end Flowsheet
