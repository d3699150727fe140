import Flowsheet.Proofs.Reading.Places

/-!
# Roles of mappings

Every mapping that is read has a role: it is an entity of one of some types, or a bend point.
`LeadsTo` follows the paths from a mapping with one role to the mappings with roles below it.

Two mappings are alike in a role if no reader can tell them apart, in either mode
(`Role.Alike`). Readers of fields only see what is present under the field's own name, and they look
into mappings below only through the readers of these. So if one of two documents comes out of the
other by putting an alike mapping for the one at the end of a path, their roots are alike
(`LeadsTo.alike`), and they are loaded as the same (`LoadOptions.loadDocument_of_alike`).
-/

namespace Flowsheet

open EntityType

/-! ### Roles -/

/-- What a mapping in a document is read as. -/
inductive Role where
  /-- An entity, of the first of some types that accepts the mapping. -/
  | entity (types : List EntityType)
  /-- A bend point. -/
  | point
  deriving DecidableEq, Repr

namespace Role

/-- The keys that mean something in a mapping. -/
def HasKey : Role → String → Prop
  | entity types, name => ∃ t ∈ types, ∃ f : t.layout.Field, t.layout.name f = name
  | point, name => name = "x" ∨ name = "y"

/-- Fields of entities can be told apart by their names. -/
def Distinct : Role → Prop
  | entity types => ∀ t ∈ types, ∀ f, findField? types (t.layout.name f) = some ⟨t, f⟩
  | point => True

/-- The type of entity that a mapping is read as. -/
def type? (types : List EntityType) (es : List (String × Document)) : Option EntityType :=
  types.find? fun t => t.accepts es

/-- A mapping is accepted by the type that it is of. -/
theorem accepts_of_type? {types : List EntityType} {es : List (String × Document)} {t : EntityType}
    (h : type? types es = some t) : t.accepts es = true := by
  unfold type? at h
  exact List.find?_some (p := fun t : EntityType => t.accepts es) h

/-- Two mappings that no reader can tell apart: they have one type, and its fields are read
alike. -/
def Alike : Role → List (String × Document) → List (String × Document) → Prop
  | entity types, es, es' => type? types es = type? types es' ∧
    ∀ t, type? types es = some t → Builder.readField t.readers es = Builder.readField t.readers es'
  | point, es, es' => (Document.mapping es).asCoordinate = (Document.mapping es').asCoordinate

end Role

/-- The role of the mappings in a field; plain values in lists are points. -/
def Shape.role (types : List EntityType) : Shape → Role
  | list _ => .point
  | required _ | optional _ | @requiredPart _ _ | @optionalPart _ _ | @parts _ _
  | @namedParts _ _ => .entity types

/-- The role of the mappings in a field of an entity. -/
def EntityType.role (t : EntityType) (f : t.layout.Field) : Role :=
  (t.layout.shape f).role (t.parts f)

/-- The fields of a part can be told apart, for parts of every field. -/
theorem EntityType.distinct_role (t : EntityType) (f : t.layout.Field) : (t.role f).Distinct := by
  unfold role
  cases t.layout.shape f with
  | list => trivial
  | required | optional | requiredPart | optionalPart | parts | namedParts =>
      exact fun u hu => t.findField?_parts f hu

/-- The fields of a workflow can be told apart. -/
theorem EntityType.distinct_workflow : (Role.entity [workflow]).Distinct := by
  intro t ht f
  obtain rfl := List.mem_singleton.mp ht
  exact workflow.owns.findField?_eq f

/-- The paths from a mapping with one role to mappings with roles below it. -/
inductive LeadsTo : Role → FaultPath → Role → Prop where
  /-- The mapping itself. -/
  | here (r : Role) : LeadsTo r [] r
  /-- A single part, and what is below it. -/
  | part {types : List EntityType} {t : EntityType} {f : t.layout.Field} {rest : FaultPath}
    {r : Role} (ht : t ∈ types) (hsingle : (t.layout.shape f).IsSingle)
    (hrest : LeadsTo (t.role f) rest r) : LeadsTo (.entity types) (t.layout.key f :: rest) r
  /-- An element of a list or map, and what is below it. -/
  | element {types : List EntityType} {t : EntityType} {f : t.layout.Field} {key : FaultKey}
    {rest : FaultPath} {r : Role} (ht : t ∈ types) (hkey : (t.layout.shape f).HasElement key)
    (hrest : LeadsTo (t.role f) rest r) :
    LeadsTo (.entity types) (t.layout.key f :: key :: rest) r

/-- A workflow with a connection that has one bend point. -/
def pointFlow (point : List (String × Document)) : List (String × Document) :=
  [("connections", .sequence [.mapping [("bend_points", .sequence [.mapping point])]])]

/-- Where the bend point of `pointFlow` stands. -/
def pointPath : FaultPath :=
  [.field "connections", .index 0, .field "bend_points", .index 0]

/-- The path leads through a connection to one of its bend points. -/
theorem leadsTo_pointPath : LeadsTo (.entity [.workflow]) pointPath .point :=
  .element (t := .workflow) (f := .connections) List.mem_cons_self trivial
    (.element (t := .connection) (f := .bendPoints) List.mem_cons_self trivial (.here .point))

/-! ### Readers -/

section

variable {α : Type} {r : Role}

/-- The reader cannot tell apart what is alike in a role. -/
def Respects (r : Role) (read : BuildMode → Document → Reading α) : Prop :=
  ∀ es es', r.Alike es es' → ∀ mode, read mode (.mapping es) = read mode (.mapping es')

/-- The readers of a field cannot tell apart what is alike in a role. -/
def Shape.Respects (r : Role) : (s : Shape) → s.Reader → Prop
  | required _, _ | optional _, _ => True
  | @requiredPart _ _, reader | @optionalPart _ _, reader => Flowsheet.Respects r reader
  | list _, reader | @parts _ _, reader | @namedParts _ _, reader =>
    Flowsheet.Respects r reader.read

/-- Reading an entity comes down to reading its fields. -/
theorem Entity.readEntries_congr {E : Type} [Entity E] {readers : (Entity.layout E).Readers}
    {es es' : List (String × Document)}
    (h : Builder.readField readers es = Builder.readField readers es') (mode : BuildMode) :
    (Entity.readEntries readers mode es : Except BuildError E) =
      Entity.readEntries readers mode es' := by
  simp only [Entity.readEntries, Builder.readFields, h]

/-- Mappings with the same effect on every field are read as the same entity. -/
theorem Entity.read_congr {E : Type} [Entity E] {readers : (Entity.layout E).Readers}
    {es es' : List (String × Document)}
    (h : Builder.readField readers es = Builder.readField readers es') (mode : BuildMode) :
    (Entity.read readers mode (.mapping es) : Reading E) =
      Entity.read readers mode (.mapping es') :=
  congrArg (Except.map Except.ok) (Entity.readEntries_congr h mode)

/-- A configuration is read as its type says. -/
theorem Config.readEntries_eq (child : BuildMode → Document → Reading Config) (mode : BuildMode)
    (es : List (String × Document)) :
    readEntries child mode es = match Role.type? [.configMap, .configValue] es with
      | some .configMap =>
        (Entity.readEntries (ConfigMap.readers child) mode es).map fun m => .ok m.toConfig
      | some .configValue =>
        (Entity.readEntries ConfigValue.readers mode es).map fun v => .ok v.toConfig
      | _ => .ok (.error (.mismatch "config entry with 'children' or 'value'" "mapping")) := by
  rw [Role.type?, type?_eq]
  unfold readEntries
  split
  · rfl
  · split <;> rfl

/-- Configurations are alike only if both are maps or both are values, and are then read alike. -/
theorem Config.respects_read : Respects (.entity [.configMap, .configValue]) Config.read := by
  intro es es' halike mode
  obtain ⟨htype, hfields⟩ := halike
  rw [read_eq, read_eq]
  show readEntries read mode es = readEntries read mode es'
  rw [readEntries_eq, readEntries_eq, ← htype]
  cases hu : Role.type? [.configMap, .configValue] es with
  | none => rfl
  | some u =>
      have hread := hfields u hu
      cases u with
      | configMap =>
          exact congrArg (Except.map fun m : ConfigMap => Except.ok m.toConfig)
            (Entity.readEntries_congr hread mode)
      | configValue =>
          exact congrArg (Except.map fun v : ConfigValue => Except.ok v.toConfig)
            (Entity.readEntries_congr hread mode)
      | workflow | node | bounds | port | connection | annotation => rfl

end

/-- What stands in a field of any type is read with respect to its role. -/
theorem EntityType.respects (t : EntityType) (f : t.layout.Field) :
    (t.layout.shape f).Respects (t.role f) (t.readers f) := by
  have hbounds : Respects (.entity [bounds]) Bounds.read :=
    fun es es' h => Entity.read_congr (h.2 bounds rfl)
  have hport : Respects (.entity [port]) Port.reader.read :=
    fun es es' h => Entity.read_congr (h.2 port rfl)
  cases t with
  | workflow =>
      cases f with
      | name => trivial
      | nodes => exact fun es es' h => Entity.read_congr (E := Node) (h.2 node rfl)
      | connections =>
          exact fun es es' h => Entity.read_congr (E := Connection) (h.2 connection rfl)
      | annotations =>
          exact fun es es' h => Entity.read_congr (E := Annotation) (h.2 EntityType.annotation rfl)
  | node =>
      cases f with
      | id | name | kind => trivial
      | bounds => exact hbounds
      | inPorts | outPorts => exact hport
      | modelSettings => exact Config.respects_read
  | connection =>
      cases f with
      | sourceId | sourcePort | destId | destPort | deletable => trivial
      | bendPoints => exact fun es es' h mode => congrArg Except.ok h
  | annotation =>
      cases f with
      | text | borderSize => trivial
      | bounds => exact hbounds
  | configMap =>
      cases f with
      | children => exact Config.respects_read
  | bounds | port | configValue => cases f <;> trivial

/-! ### Entries -/

/-- Of a pass only the effect of each item counts. -/
theorem foldlM_replace {σ ι ε : Type} {step : σ → ι → Except ε σ} {x y : ι}
    (h : ∀ s, step s x = step s y) (pre post : List ι) (s : σ) :
    (pre ++ x :: post).foldlM step s = (pre ++ y :: post).foldlM step s := by
  rw [List.foldlM_append, List.foldlM_append]
  congr 1
  funext next
  rw [List.foldlM_cons, List.foldlM_cons, h]

namespace Shape

variable {s : Shape} {reader : s.Reader} {r : Role} {es es' : List (String × Document)}

/-- Two documents that reading the entry of a field cannot tell apart. -/
def ReadsSame (s : Shape) (reader : s.Reader) (d d' : Document) : Prop :=
  ∀ scope key slot, s.read scope key reader d slot = s.read scope key reader d' slot

/-- A single part is read the same from mappings that are alike. -/
theorem readsSame_part (hs : s.IsSingle) (h : s.Respects r reader) (halike : r.Alike es es') :
    s.ReadsSame reader (.mapping es) (.mapping es') := by
  intro scope key slot
  cases s with
  | required | optional | list | parts | namedParts => cases hs
  | requiredPart | optionalPart => simp only [read, h es es' halike]

/-- Mappings that are alike, one in the place of the other in a list or map. -/
theorem readsSame_element {key : FaultKey} (hkey : s.HasElement key) (h : s.Respects r reader)
    (halike : r.Alike es es') {d d' : Document} (hchild : d.child? key = some (.mapping es))
    (hreplace : d.replace? [key] (.mapping es') = some d') : s.ReadsSame reader d d' := by
  intro scope fieldKey slot
  cases s with
  | required | optional | requiredPart | optionalPart => cases key <;> cases hkey
  | list | parts =>
      cases key with
      | field | key | prior => cases hkey
      | index i =>
          obtain ⟨items, e, e', rfl, hget, he', rfl⟩ := Document.replace?_sequence hreplace
          obtain rfl : e = .mapping es := Option.some.inj (hget.symm.trans hchild)
          cases he'
          obtain ⟨pre, post, rfl, -, hset⟩ := exists_split_of_getElem? hget
          rw [hset]
          refine foldlM_replace (fun next => ?_) pre post slot
          rw [h es es' halike]
  | namedParts =>
      cases key with
      | field | index | prior => cases hkey
      | key name =>
          obtain ⟨entries, e, e', rfl, hget, he', rfl⟩ :=
            Document.replace?_mapping (Or.inr hreplace)
          obtain rfl : e = .mapping es := Option.some.inj (hget.symm.trans hchild)
          cases he'
          obtain ⟨pre, post, rfl, hinsert⟩ := Assoc.exists_split_of_get? hget
          rw [hinsert]
          refine foldlM_replace (fun next => ?_) pre post slot
          simp only [h es es' halike]

end Shape

/-! ### Mappings below mappings -/

section

variable {es : List (String × Document)} {name : String} {e e' : Document}

/-- Another value under a key that is there does not make a mapping one of another type. -/
theorem EntityType.accepts_insert (t : EntityType) (hget : Assoc.get? name es = some e) :
    t.accepts (Assoc.insert name e' es) = t.accepts es := by
  have hcontains : ∀ k, Assoc.contains k (Assoc.insert name e' es) = Assoc.contains k es := by
    intro k
    unfold Assoc.contains
    rw [Assoc.get?_insert]
    split
    · subst_vars
      rw [hget]
      rfl
    · rfl
  cases t with
  | configMap | configValue => exact hcontains _
  | workflow | node | bounds | port | connection | annotation => rfl

/-- Fields are read alike from mappings that differ in the entry of one field, if reading that entry
cannot tell them apart. -/
theorem Builder.readField_insert {L : Layout} {readers : L.Readers}
    (hget : Assoc.get? name es = some e) (hnull : e.isNull = false) (hnull' : e'.isNull = false)
    (h : ∀ f, L.name f = name → (L.shape f).ReadsSame (readers f) e e') :
    readField readers es = readField readers (Assoc.insert name e' es) := by
  funext b f
  unfold readField Document.present?
  rw [Assoc.get?_insert]
  by_cases hname : name = L.name f
  · subst hname
    rw [hget, if_pos rfl]
    simp only [Option.filter_some, hnull, hnull']
    exact congrArg (Except.map _) (h f rfl _ _ _)
  · rw [if_neg hname]

/-- The mappings above two alike mappings are alike. -/
theorem Role.Alike.insert {types : List EntityType} (htypes : (entity types).Distinct)
    {t : EntityType} (ht : t ∈ types) {f : t.layout.Field}
    (hget : Assoc.get? (t.layout.name f) es = some e) (hnull : e.isNull = false)
    (hnull' : e'.isNull = false) (h : (t.layout.shape f).ReadsSame (t.readers f) e e') :
    (entity types).Alike es (Assoc.insert (t.layout.name f) e' es) := by
  refine ⟨?_, fun u hu => ?_⟩
  · unfold type?
    congr 1
    funext u
    exact (u.accepts_insert hget).symm
  · refine Builder.readField_insert hget hnull hnull' fun g hg => ?_
    have hfound := htypes u (List.mem_of_find?_eq_some hu) g
    rw [hg, htypes t ht f] at hfound
    cases hfound
    exact h

end

/-- Putting a value at the end of a path changes the child that the path starts with. -/
theorem Document.replace?_cons {d value d' : Document} {key : FaultKey} {rest : FaultPath}
    (h : d.replace? (key :: rest) value = some d') :
    ∃ e e', d.child? key = some e ∧ e.replace? rest value = some e' ∧
      d.replace? [key] e' = some d' ∧ d'.child? key = some e' := by
  have hmapping : ∀ name, key = .field name ∨ key = .key name →
      ∃ e e', d.child? key = some e ∧ e.replace? rest value = some e' ∧
        d.replace? [key] e' = some d' ∧ d'.child? key = some e' := by
    rintro name (rfl | rfl)
    · obtain ⟨entries, e, e', rfl, hget, he', rfl⟩ := replace?_mapping (Or.inl h)
      exact ⟨e, e', hget, he', by simp [replace?, hget], by simp [child?, Assoc.get?_insert]⟩
    · obtain ⟨entries, e, e', rfl, hget, he', rfl⟩ := replace?_mapping (Or.inr h)
      exact ⟨e, e', hget, he', by simp [replace?, hget], by simp [child?, Assoc.get?_insert]⟩
  cases key with
  | field name => exact hmapping name (Or.inl rfl)
  | key name => exact hmapping name (Or.inr rfl)
  | index i =>
      obtain ⟨items, e, e', rfl, hget, he', rfl⟩ := replace?_sequence h
      obtain ⟨hi, -⟩ := List.getElem?_eq_some_iff.mp hget
      exact ⟨e, e', hget, he', by simp [replace?, hget], by simp [child?, hi]⟩
  | prior => cases d <;> cases h

/-- If an alike mapping is put in the place of one at the end of a path, the roots are alike. -/
theorem LeadsTo.alike {r r' : Role} {p : FaultPath} (hp : LeadsTo r p r') (hr : r.Distinct)
    {es es' : List (String × Document)} (halike : r'.Alike es es') {d d' : Document}
    (hat : d.at? p = some (.mapping es)) (hreplace : d.replace? p (.mapping es') = some d') :
    ∃ ds ds', d = .mapping ds ∧ d' = .mapping ds' ∧ r.Alike ds ds' := by
  -- being alike goes up from the end of the path, one entry of a mapping at a time
  induction hp generalizing d d' with
  | here r =>
      obtain rfl : d = .mapping es := Option.some.inj ((Document.at?_nil d).symm.trans hat)
      cases hreplace
      exact ⟨es, es', rfl, rfl, halike⟩
  | @part types t f rest r ht hsingle hrest ih =>
      obtain ⟨ds, e, e', rfl, hget, hbelow, rfl⟩ := Document.replace?_mapping (Or.inl hreplace)
      have hchild : (Document.mapping ds).child? (t.layout.key f) = some e := hget
      rw [Document.at?_cons_of_child? hchild] at hat
      obtain ⟨sub, sub', rfl, rfl, hsub⟩ := ih (t.distinct_role f) halike hat hbelow
      exact ⟨ds, _, rfl, rfl, Role.Alike.insert hr ht hget rfl rfl
        (Shape.readsSame_part hsingle (t.respects f) hsub)⟩
  | @element types t f key rest r ht hkey hrest ih =>
      obtain ⟨ds, e, e', rfl, hget, hbelow, rfl⟩ := Document.replace?_mapping (Or.inl hreplace)
      have hchild : (Document.mapping ds).child? (t.layout.key f) = some e := hget
      obtain ⟨x, x', hx, hrest, helement, -⟩ := Document.replace?_cons hbelow
      rw [Document.at?_cons_of_child? hchild, Document.at?_cons_of_child? hx] at hat
      obtain ⟨sub, sub', rfl, rfl, hsub⟩ := ih (t.distinct_role f) halike hat hrest
      obtain ⟨hnull, hnull'⟩ := Document.isNull_eq_false_of_replace? hbelow
      exact ⟨ds, _, rfl, rfl, Role.Alike.insert hr ht hget hnull hnull'
        (Shape.readsSame_element hkey (t.respects f) hsub hx helement)⟩

/-- Documents whose roots are alike are loaded as the same, in either mode. -/
theorem LoadOptions.loadDocument_of_alike (o : LoadOptions) {ds ds' : List (String × Document)}
    (h : (Role.entity [.workflow]).Alike ds ds') :
    o.loadDocument (.mapping ds) = o.loadDocument (.mapping ds') := by
  rw [loadDocument_mapping, loadDocument_mapping]
  exact congrArg _ (Entity.readEntries_congr (h.2 .workflow rfl) o.mode)

end Flowsheet
