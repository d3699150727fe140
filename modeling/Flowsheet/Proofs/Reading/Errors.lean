import Flowsheet.Proofs.Fault.PathText
import Flowsheet.Proofs.Reading.DocumentOrder
import Flowsheet.Proofs.Reading.Values

/-!
# Which errors a load reports

A fault of a tolerant load is an error of a field's reader, in some entity that is read from a
mapping of the document (`arises_of_mem_faults`). The entity stands at the front of the fault's path
(`StandsAt`), and what is left of the path is short (`OwnError`): the field, if it is missing or its
whole entry is turned down; the field and a member, if only a member of a list or map is; and one
field more for what the stand-in of a member misses.

So all paths of faults have the names of fields in them (`Arises.named`), and the document at the
end of a path can be found from the entity (`StandsAt.at?_append`).
-/

namespace Flowsheet

open EntityType

/-! ### Following paths -/

namespace Document

/-- What a document has under a key, if it has such a key. -/
def child? : Document → FaultKey → Option Document
  | .mapping entries, .field name | .mapping entries, .key name => Assoc.get? name entries
  | .sequence items, .index i => items[i]?
  | _, _ => none

/-- What a document has at the end of a path, if the path leads anywhere. -/
def at? (d : Document) : FaultPath → Option Document
  | [] => some d
  | key :: rest => (d.child? key).bind fun e => e.at? rest

/-- The empty path leads to the document itself. -/
@[simp] theorem at?_nil (d : Document) : d.at? [] = some d := by
  cases d <;> rfl

/-- A path leads below the child that its first key names. -/
theorem at?_cons (d : Document) (key : FaultKey) (rest : FaultPath) :
    d.at? (key :: rest) = (d.child? key).bind fun e => e.at? rest := rfl

/-- The path goes on where a child is. -/
theorem at?_cons_of_child? {d e : Document} {key : FaultKey} (h : d.child? key = some e)
    (rest : FaultPath) : d.at? (key :: rest) = e.at? rest := by
  rw [at?_cons, h]
  rfl

/-- What there is under a key is the child, or nothing. -/
theorem under_eq (d : Document) (key : FaultKey) : d.under key = (d.child? key).getD .null := by
  cases d <;> cases key <;> rfl

/-- The children of a well-formed document are well-formed. -/
theorem WellFormed.child? {d e : Document} {key : FaultKey} (h : d.WellFormed)
    (he : d.child? key = some e) : e.WellFormed := by
  have hunder := h.under key
  rw [under_eq, he] at hunder
  exact hunder

/-- What stands at a path in a well-formed document is well-formed. -/
theorem WellFormed.at? {d e : Document} {p : FaultPath} (h : d.WellFormed)
    (he : d.at? p = some e) : e.WellFormed := by
  induction p generalizing d with
  | nil => exact Option.some.inj ((at?_nil d).symm.trans he) ▸ h
  | cons key rest ih =>
      obtain ⟨c, hc, hrest⟩ := Option.bind_eq_some_iff.mp ((at?_cons d key rest).symm.trans he)
      exact ih (h.child? hc) hrest

/-- A document that has nothing for a field: it is no mapping, or a mapping in which the field is
absent or null. -/
def Lacks (name : String) (d : Document) : Prop :=
  ∀ entries, d = .mapping entries →
    Assoc.get? name entries = none ∨ Assoc.get? name entries = some .null

end Document

/-- A mapping that a type turns down lacks the fields that the type requires. -/
theorem EntityType.lacks_of_accepts {u : EntityType} {es : List (String × Document)}
    (h : u.accepts es = false) {name : String} (hname : name ∈ u.layout.requiredNames) :
    (Document.mapping es).Lacks name := by
  cases u with
  | configMap => cases hname
  | configValue =>
      obtain rfl : name = "value" := List.mem_singleton.mp hname
      rintro entries ⟨⟩
      exact Or.inl (Option.isSome_eq_false_iff.mp h |> Option.isNone_iff_eq_none.mp)
  | workflow | node | bounds | port | connection | annotation => cases h

/-! ### Errors of readers -/

/-- The error of a pair is that of its first number, or that of its second. -/
theorem Document.pair_eq_error {x y : Document} {e : FieldError} (h : pair x y = .error e) :
    x.asInt32 = .error e ∨ y.asInt32 = .error e := by
  unfold pair at h
  cases hx : x.asInt32 with
  | error e' =>
    rw [hx] at h
    cases h
    exact Or.inl rfl
  | ok a =>
    cases hy : y.asInt32 with
    | error e' =>
      rw [hx, hy] at h
      cases h
      exact Or.inr rfl
    | ok b =>
      rw [hx, hy] at h
      cases h

/-- A point is no point at all, or it lacks a number, or one of its numbers is none. -/
theorem Document.asCoordinate_eq_error {d : Document} {e : FieldError}
    (h : d.asCoordinate = .error e) :
    (∃ expected ∈ ["coordinate", "pair of integers"], e = d.mismatch expected) ∨
      (∃ x : Document, x.asInt32 = .error e) ∨
      ∃ es, ∃ name ∈ ["x", "y"], d = .mapping es ∧ Assoc.get? name es = none ∧
        e = .missing name := by
  have hnumber : ∀ {x y : Document}, pair x y = .error e → ∃ x : Document, x.asInt32 = .error e :=
    fun hpair => (pair_eq_error hpair).elim (fun hx => ⟨_, hx⟩) fun hy => ⟨_, hy⟩
  cases d with
  | sequence items =>
    rcases items with _ | ⟨x, _ | ⟨y, _ | ⟨z, rest⟩⟩⟩
    · exact Or.inl ⟨"pair of integers", by simp, (Except.error.inj h).symm⟩
    · exact Or.inl ⟨"pair of integers", by simp, (Except.error.inj h).symm⟩
    · exact Or.inr (Or.inl (hnumber h))
    · exact Or.inl ⟨"pair of integers", by simp, (Except.error.inj h).symm⟩
  | mapping es =>
    refine Or.inr ?_
    cases hx : Assoc.get? "x" es with
    | none =>
      rw [asCoordinate_of_no_x hx] at h
      exact Or.inr ⟨es, "x", by simp, rfl, hx, (Except.error.inj h).symm⟩
    | some x =>
      cases hy : Assoc.get? "y" es with
      | none =>
        rw [asCoordinate_of_no_y hx hy] at h
        exact Or.inr ⟨es, "y", by simp, rfl, hy, (Except.error.inj h).symm⟩
      | some y =>
        rw [asCoordinate_of_both hx hy] at h
        exact Or.inl (hnumber h)
  | null | bool | integer | float | string =>
    exact Or.inl ⟨"coordinate", by simp, (Except.error.inj h).symm⟩

/-- Whatever is no mapping is turned down as an entity. -/
theorem Entity.tolerantly_read_eq_error {E : Type} [Entity E] {readers : (Entity.layout E).Readers}
    (h : readers.Tolerate) {d : Document} {e : FieldError}
    (he : tolerantly (Entity.read readers : BuildMode → Document → Reading E) d = .error e) :
    e = d.mismatch "mapping" := by
  rw [Entity.tolerantly_read h] at he
  cases hes : d.asEntries with
  | ok es =>
    rw [hes] at he
    cases he
  | error e' =>
    rw [hes] at he
    cases he
    exact Document.asEntries_eq_error hes

/-- So it is as a configuration, and mappings without the fields of either kind are, too. -/
theorem Config.tolerantly_read_eq_error {d : Document} {e : FieldError}
    (he : tolerantly Config.read d = .error e) :
    ∃ expected ∈ ["mapping", "config entry with 'children' or 'value'"],
      e = d.mismatch expected := by
  rw [Config.tolerantly_read] at he
  cases hes : d.asEntries with
  | ok es =>
    rw [hes] at he
    obtain rfl := Document.eq_mapping_of_asEntries hes
    have hentries : loadedEntries Config.read es = .error e := he
    unfold loadedEntries at hentries
    split at hentries
    · cases hentries
    · split at hentries
      · cases hentries
      · exact ⟨_, List.mem_cons_of_mem _ List.mem_cons_self, (Except.error.inj hentries).symm⟩
  | error e' =>
    rw [hes] at he
    cases he
    exact ⟨_, List.mem_cons_self, Document.asEntries_eq_error hes⟩

/-! ### Errors of one entry -/

namespace Shape

/-- The entry of a field is turned down as a whole. -/
def Refuses : (s : Shape) → s.Reader → Document → FieldError → Prop
  | required _, reader, d, e | optional _, reader, d, e => reader d = .error e
  | @requiredPart _ _, reader, d, e | @optionalPart _ _, reader, d, e =>
    tolerantly reader d = .error e
  | s@(list _), _, d, e | s@(@parts _ _), _, d, e | s@(@namedParts _ _), _, d, e =>
    s.items? d = none ∧ e = d.mismatch s.wanted

/-- A member of a list or map is turned down. -/
def RefusesItem : (s : Shape) → s.Reader → Document → FieldError → Prop
  | list _, reader, d, e | @parts _ _, reader, d, e | @namedParts _ _, reader, d, e =>
    tolerantly reader.read d = .error e
  | required _, _, _, _ | optional _, _, _, _ | @requiredPart _ _, _, _, _
  | @optionalPart _ _, _, _, _ => False

/-- The errors in an entry, with their paths from there, apart from those of entities in it. Members
of lists and maps are replaced by stand-ins of some types, which miss fields themselves. -/
inductive EntryError (types : List EntityType) (s : Shape) (reader : s.Reader) (d : Document) :
    FaultPath → FieldError → Prop where
  /-- The whole entry is turned down. -/
  | entry {e : FieldError} (h : s.Refuses reader d e) : EntryError types s reader d [] e
  /-- A member is turned down. -/
  | member {items : List (FaultKey × Document)} {item : FaultKey × Document} {e : FieldError}
    (hitems : s.items? d = some items) (hitem : item ∈ items)
    (h : s.RefusesItem reader item.2 e) : EntryError types s reader d [item.1] e
  /-- The stand-in of a member misses a field. -/
  | standIn {items : List (FaultKey × Document)} {item : FaultKey × Document} {u : EntityType}
    {name : String} (hitems : s.items? d = some items) (hitem : item ∈ items) (hu : u ∈ types)
    (hname : name ∈ u.layout.requiredNames) (hlacks : item.2.Lacks name) :
    EntryError types s reader d [item.1, .field name] (.missing name)

variable {types : List EntityType} {type? : List (String × Document) → Option EntityType}
  {s : Shape} {view : s.PartView} {reader : s.Reader} {d : Document}
  {items : List (FaultKey × Document)} {item : FaultKey × Document}

/-- The key of a member leads to it, in the document and among the types. -/
theorem child?_of_mem_items (hd : d.WellFormed) (h : s.items? d = some items)
    (hitem : item ∈ items) : d.child? item.1 = some item.2 ∧ item.1 ≠ .prior ∧
      ∀ types last q, ownerFrom types last (item.1 :: q) = ownerFrom types last q := by
  rcases items?_cases h with ⟨ds, rfl, rfl⟩ | ⟨entries, rfl, rfl⟩
  · obtain ⟨e, he, rfl⟩ := List.mem_map.mp hitem
    exact ⟨List.mem_zipIdx_iff_getElem?.mp he, FaultKey.noConfusion, fun _ _ _ => rfl⟩
  · obtain ⟨e, he, rfl⟩ := List.mem_map.mp hitem
    exact ⟨(Assoc.get?_eq_some_iff (Document.wellFormed_mapping.mp hd).1).mpr he,
      FaultKey.noConfusion, fun _ _ _ => rfl⟩

/-- The tree of a member of a list or map of parts. -/
theorem mem_faults_part {α : Type} [HasFaults α] {view : α → AnyEntity} {reader : ItemReader α}
    (hview : IsView types view) (hread : IsPartReader view reader.read type?)
    (hfallback : ∃ u ∈ types, view reader.fallback = ⟨u, Record.placeholder u.layout⟩)
    (hlacks : ∀ es, type? es = none → ∀ u ∈ types, ∀ name ∈ u.layout.requiredNames,
      (Document.mapping es).Lacks name)
    {p : FaultPath} {fault : Fault}
    (hmem : (p, fault) ∈ (HasFaults.faults (reader.part d)).faults) :
    (∃ es u, d = .mapping es ∧ type? es = some u ∧
        (p, fault) ∈ (Layout.loadedRecord u.readers es).faults.faults) ∨
      ∃ e, tolerantly reader.read d = .error e ∧ (p = [] ∧ fault = ⟨.field e⟩ ∨
        ∃ u ∈ types, ∃ name ∈ u.layout.requiredNames, d.Lacks name ∧ p = [.field name] ∧
          fault = Fault.missing name) := by
  rcases ItemReader.faults_part_cases hview hread hfallback d with
    ⟨es, u, hd, hu, hfaults⟩ | ⟨e, he, u, hu, hfaults⟩
  · rw [hfaults] at hmem
    exact Or.inl ⟨es, u, hd, hu, hmem⟩
  · rw [hfaults] at hmem
    refine Or.inr ⟨e, he, ?_⟩
    rcases FaultTree.mem_faults_merge hmem with ⟨rfl, hfault⟩ | ⟨c, hc, rest, rfl, hrest⟩
    · exact Or.inl ⟨rfl, (Option.some.inj hfault).symm⟩
    · obtain ⟨name, hname, rfl⟩ := List.mem_map.mp hc
      obtain ⟨rfl, rfl⟩ := Prod.mk.inj (List.mem_singleton.mp hrest)
      refine Or.inr ⟨u, hu, name, hname, ?_, rfl, rfl⟩
      rintro es rfl
      refine hlacks es ?_ u hu name hname es rfl
      -- a mapping that has a type is read, not turned down
      cases htype : type? es with
      | none => rfl
      | some v =>
        obtain ⟨a, ha, -⟩ := hread.read_mapping es v htype
        rw [ha] at he
        cases he

/-- A fault of an entry is an error of the entry or belongs to an entity in it: to the single part
that the entry is, or to a member. -/
theorem mem_faults_loaded (hview : PartView.Lawful types s view)
    (hread : s.ReadsParts view reader type?) (hfallback : s.FallsBackTo types view reader)
    (hlacks : ∀ es, type? es = none → ∀ u ∈ types, ∀ name ∈ u.layout.requiredNames,
      (Document.mapping es).Lacks name) (hd : d.WellFormed)
    {p : FaultPath} {fault : Fault} (hmem : (p, fault) ∈ (s.faults (s.loaded reader d)).faults) :
    (∃ e, fault = ⟨.field e⟩ ∧ EntryError types s reader d p e) ∨
      (∃ es u, s.IsSingle ∧ d = .mapping es ∧ type? es = some u ∧
        (p, fault) ∈ (Layout.loadedRecord u.readers es).faults.faults) ∨
      ∃ items key es u rest, s.items? d = some items ∧ (key, .mapping es) ∈ items ∧
        type? es = some u ∧ p = key :: rest ∧
        (rest, fault) ∈ (Layout.loadedRecord u.readers es).faults.faults := by
  -- a list or map has its faults at its members, unless it is none; any other field has
  -- those of its value
  by_cases hs : s.IsCollection
  · cases hitems : s.items? d with
    | none =>
      rw [(loaded_of_items?_eq_none _ hs hitems).2] at hmem
      obtain ⟨rfl, rfl⟩ := Prod.mk.inj (List.mem_singleton.mp hmem)
      refine Or.inl ⟨_, rfl, .entry ?_⟩
      cases s with
      | required | optional | requiredPart | optionalPart => cases hs
      | list | parts | namedParts => exact ⟨hitems, rfl⟩
    | some items =>
      rw [faults_loaded reader hd hitems] at hmem
      rcases FaultTree.mem_faults_merge hmem with ⟨-, hnone⟩ | ⟨c, hc, rest, rfl, hrest⟩
      · cases hnone
      obtain ⟨item, hitem, rfl⟩ := List.mem_map.mp hc
      cases s with
      | required | optional | requiredPart | optionalPart => cases hs
      | list α =>
        simp only [itemFaults, ItemReader.element] at hrest
        cases he : tolerantly reader.read item.2 with
        | ok a =>
          rw [he] at hrest
          cases hrest
        | error e =>
          rw [he] at hrest
          obtain ⟨rfl, rfl⟩ := Prod.mk.inj (List.mem_singleton.mp hrest)
          exact Or.inl ⟨e, rfl, .member hitems hitem he⟩
      | parts α | namedParts α =>
        rcases mem_faults_part hview hread hfallback hlacks hrest with
          ⟨es, u, hes, hu, hbelow⟩ | ⟨e, he, ⟨rfl, rfl⟩ |
            ⟨u, hu, name, hname, hlacks, rfl, rfl⟩⟩
        · exact Or.inr (Or.inr ⟨items, item.1, es, u, rest, rfl, hes ▸ hitem, hu, rfl, hbelow⟩)
        · exact Or.inl ⟨e, rfl, .member hitems hitem he⟩
        · exact Or.inl ⟨_, rfl, .standIn hitems hitem hu hname hlacks⟩
  · cases s with
    | list | parts | namedParts => exact absurd trivial hs
    | required | optional =>
      simp only [loaded] at hmem
      cases hv : reader d with
      | ok v =>
        rw [hv] at hmem
        cases hmem
      | error e =>
        rw [hv] at hmem
        obtain ⟨rfl, rfl⟩ := Prod.mk.inj (List.mem_singleton.mp hmem)
        exact Or.inl ⟨e, rfl, .entry hv⟩
    | requiredPart | optionalPart =>
      simp only [loaded] at hmem
      cases ha : tolerantly reader d with
      | ok a =>
        rw [ha] at hmem
        obtain ⟨es, u, rfl, hu, hfaults⟩ := hread.faults_of_ok hview ha
        have hbelow : (p, fault) ∈ (HasFaults.faults a).faults := hmem
        rw [hfaults] at hbelow
        exact Or.inr (Or.inl ⟨es, u, trivial, rfl, hu, hbelow⟩)
      | error e =>
        rw [ha] at hmem
        obtain ⟨rfl, rfl⟩ := Prod.mk.inj (List.mem_singleton.mp hmem)
        exact Or.inl ⟨e, rfl, .entry ha⟩

end Shape

/-! ### Errors of one entity -/

/-- The errors in an entity that is read from a mapping, with their paths from there, apart from
those of entities in its fields. -/
inductive OwnError (t : EntityType) (es : List (String × Document)) :
    FaultPath → FieldError → Prop where
  /-- A required field is missing. -/
  | missing {f : t.layout.Field} (hrequired : (t.layout.shape f).isRequired = true)
    (hlacks : (Document.mapping es).Lacks (t.layout.name f)) :
    OwnError t es [t.layout.key f] (.missing (t.layout.name f))
  /-- Something is wrong with the entry of a field. -/
  | entry {f : t.layout.Field} {d : Document} {p : FaultPath} {e : FieldError}
    (hpresent : Document.present? (t.layout.name f) es = some d)
    (h : Shape.EntryError (t.parts f) (t.layout.shape f) (t.readers f) d p e) :
    OwnError t es (t.layout.key f :: p) e

/-- An error below a mapping that is read as an entity: one of an entity that stands there. -/
def Arises (t : EntityType) (es : List (String × Document)) (p : FaultPath) (e : FieldError) :
    Prop :=
  ∃ front rest u sub, p = front ++ rest ∧ StandsAt t es front u sub ∧ OwnError u sub rest e

/-- Every fault of a loaded entity is an error that arises below its mapping. -/
theorem arises_of_mem_faults (t : EntityType) {es : List (String × Document)}
    (hes : (Document.mapping es).WellFormed) {p : FaultPath} {fault : Fault}
    (hmem : (p, fault) ∈ (Layout.loadedRecord t.readers es).faults.faults) :
    ∃ e, fault = ⟨.field e⟩ ∧ Arises t es p e := by
  refine induction_on_parts
    (P := fun t es => ∀ p, (p, fault) ∈ (Layout.loadedRecord t.readers es).faults.faults →
      ∃ e, fault = ⟨.field e⟩ ∧ Arises t es p e)
    (fun t es hes ih p hmem => ?_) t hes p hmem
  rw [Layout.faults_loadedRecord] at hmem
  rcases FaultTree.mem_faults_merge hmem with ⟨-, hnone⟩ | ⟨c, hc, rest, rfl, hrest⟩
  · cases hnone
  obtain ⟨f, -, rfl⟩ := List.mem_map.mp hc
  unfold Layout.entryFaults at hrest
  cases hpresent : Document.present? (t.layout.name f) es with
  | none =>
    simp only [hpresent] at hrest
    split at hrest
    next hrequired =>
      obtain ⟨rfl, rfl⟩ := Prod.mk.inj (List.mem_singleton.mp hrest)
      refine ⟨_, rfl, [], _, t, es, rfl, .root, .missing hrequired ?_⟩
      rintro entries ⟨⟩
      exact Document.present?_eq_none_iff.mp hpresent
    next => cases hrest
  | some d =>
    simp only [hpresent] at hrest
    have hd : d.WellFormed :=
      (Document.wellFormed_mapping.mp hes).2 _ (Document.mem_of_present? hpresent)
    have hget : Assoc.get? (t.layout.name f) es = some d :=
      (Option.filter_eq_some_iff.mp hpresent).1
    -- a mapping without a type was turned down by every type that the field may hold
    have hturned : ∀ sub, t.partType? f sub = none → ∀ u ∈ t.parts f,
        ∀ name ∈ u.layout.requiredNames, (Document.mapping sub).Lacks name := by
      intro sub hnone u hu name
      exact lacks_of_accepts (Bool.eq_false_iff.mpr (List.find?_eq_none.mp hnone u hu))
    rcases Shape.mem_faults_loaded (t.partView_lawful f) (t.readsParts f) (t.fallsBackTo f)
      hturned hd hrest with
      ⟨e, hfault, herror⟩ | ⟨sub, u, hsingle, rfl, hu, hbelow⟩ |
        ⟨items, key, sub, u, p, hitems, hitem, hu, rfl, hbelow⟩
    · exact ⟨e, hfault, [], _, t, es, rfl, .root, .entry hpresent herror⟩
    · obtain ⟨e, hfault, front, p, v, target, rfl, hstands, herror⟩ :=
        ih f _ sub u hpresent (Or.inl rfl) hu rest hbelow
      exact ⟨e, hfault, t.layout.key f :: front, p, v, target, rfl,
        .part hsingle hget hu hstands, herror⟩
    · obtain ⟨e, hfault, front, q, v, target, rfl, hstands, herror⟩ :=
        ih f d sub u hpresent (Or.inr ⟨items, key, hitems, hitem⟩) hu p hbelow
      exact ⟨e, hfault, t.layout.key f :: key :: front, q, v, target, rfl,
        .member hget hitems hitem hu hstands, herror⟩

/-! ### Paths of errors -/

/-- Fields of entities have names of letters and underscores. -/
theorem EntityType.isFieldName (t : EntityType) (f : t.layout.Field) :
    IsFieldName (t.layout.name f) := by
  cases t <;> cases f <;> decide

/-- The keys of fields in trees have names that a path can show. -/
theorem EntityType.named_key (t : EntityType) (f : t.layout.Field) : (t.layout.key f).Named := by
  rintro name ⟨⟩
  exact t.isFieldName f

/-- The names of required fields are names of fields. -/
theorem EntityType.isFieldName_of_mem_requiredNames (t : EntityType) {name : String}
    (h : name ∈ t.layout.requiredNames) : IsFieldName name := by
  obtain ⟨f, -, rfl⟩ := List.mem_map.mp h
  exact t.isFieldName f

/-- The keys of members are places or keys of maps, which need no name. -/
theorem Shape.named_of_mem_items {s : Shape} {d : Document} {items : List (FaultKey × Document)}
    {item : FaultKey × Document} (h : s.items? d = some items) (hitem : item ∈ items) :
    item.1.Named := by
  rcases items?_cases h with ⟨ds, -, rfl⟩ | ⟨entries, -, rfl⟩
  · obtain ⟨e, -, rfl⟩ := List.mem_map.mp hitem
    exact fun _ => FaultKey.noConfusion
  · obtain ⟨e, -, rfl⟩ := List.mem_map.mp hitem
    exact fun _ => FaultKey.noConfusion

/-- The path to an entity in a document goes through fields that have names, and through members. -/
theorem StandsAt.named {t u : EntityType} {es sub : List (String × Document)} {p : FaultPath}
    (h : StandsAt t es p u sub) : p.Named := by
  induction h with
  | root => exact fun _ hkey => absurd hkey List.not_mem_nil
  | part _ _ _ _ ih => exact List.forall_mem_cons.mpr ⟨named_key _ _, ih⟩
  | member _ hitems hmem _ _ ih =>
    exact List.forall_mem_cons.mpr ⟨named_key _ _,
      List.forall_mem_cons.mpr ⟨Shape.named_of_mem_items hitems hmem, ih⟩⟩

/-- So does the path to an error in an entity. -/
theorem OwnError.named {t : EntityType} {es : List (String × Document)} {p : FaultPath}
    {e : FieldError} (h : OwnError t es p e) : p.Named := by
  have hnil : FaultPath.Named [] := fun _ hkey => absurd hkey List.not_mem_nil
  cases h with
  | missing => exact List.forall_mem_cons.mpr ⟨t.named_key _, hnil⟩
  | entry hpresent h =>
    refine List.forall_mem_cons.mpr ⟨t.named_key _, ?_⟩
    cases h with
    | entry => exact hnil
    | member hitems hitem =>
      exact List.forall_mem_cons.mpr ⟨Shape.named_of_mem_items hitems hitem, hnil⟩
    | @standIn items item u name hitems hitem hu hname =>
      refine List.forall_mem_cons.mpr ⟨Shape.named_of_mem_items hitems hitem,
        List.forall_mem_cons.mpr ⟨?_, hnil⟩⟩
      rintro name' ⟨⟩
      exact u.isFieldName_of_mem_requiredNames hname

/-- All fields on the path of an error have their names. -/
theorem Arises.named {t : EntityType} {es : List (String × Document)} {p : FaultPath}
    {e : FieldError} (h : Arises t es p e) : p.Named := by
  obtain ⟨front, rest, u, sub, rfl, hstands, herror⟩ := h
  exact List.forall_mem_append.mpr ⟨hstands.named, herror.named⟩

/-- What stands below an entity is found from there. -/
theorem StandsAt.at?_append {t u : EntityType} {es sub : List (String × Document)} {p : FaultPath}
    (h : StandsAt t es p u sub) (hes : (Document.mapping es).WellFormed) (rest : FaultPath) :
    (Document.mapping es).at? (p ++ rest) = (Document.mapping sub).at? rest := by
  induction h with
  | root => rfl
  | @part t u v es sub target f p _ hfield _ _ ih =>
    have hsub := (Document.wellFormed_mapping.mp hes).2 _ (Assoc.mem_of_get?_eq_some hfield)
    have hchild : (Document.mapping es).child? (t.layout.key f) = some (.mapping sub) := hfield
    exact (Document.at?_cons_of_child? hchild _).trans (ih hsub)
  | @member t u v es sub target f d items key p hfield hitems hmem _ _ ih =>
    have hd : d.WellFormed :=
      (Document.wellFormed_mapping.mp hes).2 _ (Assoc.mem_of_get?_eq_some hfield)
    have hsub : (Document.mapping sub).WellFormed := Shape.wellFormed_of_mem_items hd hitems hmem
    have hchild : (Document.mapping es).child? (t.layout.key f) = some d := hfield
    calc (Document.mapping es).at? (t.layout.key f :: key :: p ++ rest)
        = d.at? (key :: (p ++ rest)) := Document.at?_cons_of_child? hchild _
      _ = (Document.mapping sub).at? (p ++ rest) :=
          Document.at?_cons_of_child? (Shape.child?_of_mem_items hd hitems hmem).1 _
      _ = (Document.mapping target).at? rest := ih hsub

end Flowsheet
