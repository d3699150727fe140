import Flowsheet.Proofs.Reading.Position
import Flowsheet.Proofs.Reading.Run

/-!
# Isolation of faults

Putting another document at one position of a document changes what is loaded at that position and
below it, and nothing else. `IsolatedAt` says so of a reader and a path. It holds of the readers of
parts because it holds field by field: a part or an element at the path is read in its place
(`Shape.loaded_part`, `Shape.loaded_element`), the fields of an entity are read apart from each
other (`loadedRecord_isolated`), and configurations follow by induction on the path. For loading
this gives `load_isolated`.
-/

namespace Flowsheet

open EntityType Spot

/-! ### Replaced documents -/

namespace Assoc

variable {α : Type}

/-- Where a key is, writing to it leaves the entries before and after as they are. -/
theorem exists_split_of_get? {k : String} {v : α} {es : List (String × α)}
    (h : get? k es = some v) :
    ∃ pre post, es = pre ++ (k, v) :: post ∧ ∀ w, insert k w es = pre ++ (k, w) :: post := by
  induction es with
  | nil => cases h
  | cons e rest ih =>
      obtain ⟨j, w⟩ := e
      rw [get?_cons] at h
      by_cases hjk : j = k
      · subst hjk
        rw [if_pos rfl] at h
        cases h
        exact ⟨[], rest, rfl, fun w => by simp [insert]⟩
      · rw [if_neg hjk] at h
        obtain ⟨pre, post, rfl, hinsert⟩ := ih h
        exact ⟨(j, w) :: pre, post, rfl, fun w' => by simp [insert, hjk, hinsert]⟩

end Assoc

namespace Document

/-- What is replaced below a name or key is in a mapping, in one of its entries. -/
theorem replace?_mapping {d value d' : Document} {name : String} {rest : FaultPath}
    (h : d.replace? (.field name :: rest) value = some d' ∨
      d.replace? (.key name :: rest) value = some d') :
    ∃ entries e e', d = mapping entries ∧ Assoc.get? name entries = some e ∧
      e.replace? rest value = some e' ∧ d' = mapping (Assoc.insert name e' entries) := by
  cases d with
  | mapping entries =>
      have hreplace : ((Assoc.get? name entries).bind fun d =>
          (d.replace? rest value).map fun d' => mapping (Assoc.insert name d' entries)) =
            some d' := h.elim id id
      obtain ⟨e, he, hmap⟩ := Option.bind_eq_some_iff.mp hreplace
      obtain ⟨e', he', rfl⟩ := Option.map_eq_some_iff.mp hmap
      exact ⟨entries, e, e', rfl, he, he', rfl⟩
  | null | bool | integer | float | string | sequence => rcases h with h | h <;> cases h

/-- What is replaced below an index is in a sequence, in one of its items. -/
theorem replace?_sequence {d value d' : Document} {i : Nat} {rest : FaultPath}
    (h : d.replace? (.index i :: rest) value = some d') :
    ∃ items e e', d = sequence items ∧ items[i]? = some e ∧ e.replace? rest value = some e' ∧
      d' = sequence (items.set i e') := by
  cases d with
  | sequence items =>
      obtain ⟨e, he, hmap⟩ := Option.bind_eq_some_iff.mp h
      obtain ⟨e', he', rfl⟩ := Option.map_eq_some_iff.mp hmap
      exact ⟨items, e, e', rfl, he, he', rfl⟩
  | null | bool | integer | float | string | mapping => cases h

/-- Only sequences and mappings have anything below them. -/
theorem isNull_eq_false_of_replace? {d value d' : Document} {key : FaultKey} {rest : FaultPath}
    (h : d.replace? (key :: rest) value = some d') : d.isNull = false ∧ d'.isNull = false := by
  cases key with
  | field name =>
      obtain ⟨entries, e, e', rfl, -, -, rfl⟩ := replace?_mapping (Or.inl h)
      exact ⟨rfl, rfl⟩
  | key name =>
      obtain ⟨entries, e, e', rfl, -, -, rfl⟩ := replace?_mapping (Or.inr h)
      exact ⟨rfl, rfl⟩
  | index i =>
      obtain ⟨items, e, e', rfl, -, -, rfl⟩ := replace?_sequence h
      exact ⟨rfl, rfl⟩
  | prior => cases d <;> cases h

end Document

/-! ### Readers -/

section

variable {α : Type} [HasFaults α]

/-- Replacing what is at the path changes what is read at the path and below it only. -/
def IsolatedAt (view : α → AnyEntity) (read : BuildMode → Document → Reading α) (p : FaultPath) :
    Prop :=
  ∀ d value d' : Document, d.WellFormed → d.replace? p value = some d' →
    ∃ a b, tolerantly read d = .ok a ∧ tolerantly read d' = .ok b ∧
      AgreeOff p (.entity (view a)) (.entity (view b)) ∧
      (HasFaults.faults a).outside p = (HasFaults.faults b).outside p

/-- The same for the parts of a field; plain values have nothing below them. -/
def Shape.IsolatedAt : (s : Shape) → s.PartView → s.Reader → FaultPath → Prop
  | required _, _, _, _ | optional _, _, _, _ | list _, _, _, _ => False
  | @requiredPart _ _, view, reader, p | @optionalPart _ _, view, reader, p =>
    Flowsheet.IsolatedAt view reader p
  | @parts _ _, view, reader, p | @namedParts _ _, view, reader, p =>
    Flowsheet.IsolatedAt view reader.read p

/-- What is loaded into a field from two documents agrees outside a path. -/
def Shape.LoadedAgree (s : Shape) (view : s.PartView) (reader : s.Reader) (p : FaultPath)
    (d d' : Document) : Prop :=
  AgreeOff p (.field s view (s.content (s.loaded reader d)))
      (.field s view (s.content (s.loaded reader d'))) ∧
    (s.faults (s.loaded reader d)).outside p = (s.faults (s.loaded reader d')).outside p

/-- A single part stands at the path of its field. -/
theorem Shape.loaded_part {s : Shape} (hs : s.IsSingle) {view : s.PartView} {reader : s.Reader}
    {p : FaultPath} (h : s.IsolatedAt view reader p) {d value d' : Document} (hd : d.WellFormed)
    (hreplace : d.replace? p value = some d') : s.LoadedAgree view reader p d d' := by
  cases s with
  | requiredPart α | optionalPart α =>
      obtain ⟨a, b, ha, hb, hagree, hfaults⟩ := h d value d' hd hreplace
      unfold LoadedAgree
      simp only [loaded, ha, hb]
      exact ⟨hagree.congr rfl rfl rfl rfl, hfaults⟩
  | required | optional | list | parts | namedParts => cases hs

/-- One item of a list or map. -/
theorem ItemReader.part_isolated {reader : ItemReader α} {view : α → AnyEntity} {p : FaultPath}
    (h : p = [] ∨ IsolatedAt view reader.read p) {d value d' : Document} (hd : d.WellFormed)
    (hreplace : d.replace? p value = some d') :
    AgreeOff p (.entity (view (reader.part d))) (.entity (view (reader.part d'))) ∧
      (HasFaults.faults (reader.part d)).outside p =
        (HasFaults.faults (reader.part d')).outside p := by
  rcases h with rfl | h
  · exact ⟨agreeOff_nil _ _, FaultTree.outside_nil _ _⟩
  · obtain ⟨a, b, ha, hb, hagree⟩ := h d value d' hd hreplace
    unfold part
    rw [ha, hb]
    exact hagree

end

/-! ### Elements -/

section

variable {β : Type} {pre post : List β} {x y : β} {rest : FaultPath}

/-- An item of a list stands between those before and those after it. -/
theorem exists_split_of_getElem? {items : List β} {i : Nat} (h : items[i]? = some x) :
    ∃ pre post, items = pre ++ x :: post ∧ pre.length = i ∧
      ∀ y, items.set i y = pre ++ y :: post := by
  induction items generalizing i with
  | nil => cases h
  | cons z items ih =>
      cases i with
      | zero =>
          cases h
          exact ⟨[], items, rfl, rfl, fun y => rfl⟩
      | succ i =>
          obtain ⟨pre, post, rfl, rfl, hset⟩ := ih h
          exact ⟨z :: pre, post, rfl, rfl, fun y => by simp [hset]⟩

/-- An item that is replaced does not show at the other places. -/
theorem getElem?_of_ne_length {j : Nat} (h : j ≠ pre.length) :
    (pre ++ x :: post)[j]? = (pre ++ y :: post)[j]? := by
  rw [List.getElem?_append, List.getElem?_append]
  split
  · rfl
  · obtain ⟨k, hk⟩ : ∃ k, j - pre.length = k + 1 := ⟨j - pre.length - 1, by omega⟩
    rw [hk]
    rfl

/-- Fields with a list that differs at one place only. -/
theorem agreeOff_places {a b : Spot} {g : β → Spot}
    (ha : ∀ j, a.child? (.index j) = ((pre ++ x :: post)[j]?).map g)
    (hb : ∀ j, b.child? (.index j) = ((pre ++ y :: post)[j]?).map g)
    (hother : ∀ k, (∀ j, k ≠ .index j) → a.child? k = b.child? k)
    (hkeys : a.childKeys = b.childKeys) (h : AgreeOff rest (g x) (g y)) :
    AgreeOff (.index pre.length :: rest) a b := by
  refine agreeOff_cons hkeys (fun k hk => ?_) (c := g x) (d := g y) ?_ ?_ h
  · by_cases hindex : ∃ j, k = .index j
    · obtain ⟨j, rfl⟩ := hindex
      rw [ha, hb, getElem?_of_ne_length fun hj => hk (congrArg FaultKey.index hj)]
    · exact hother k fun j hj => hindex ⟨j, hj⟩
  · rw [ha]
    simp
  · rw [hb]
    simp

/-- Fields with a map that differs at one key only. -/
theorem agreeOff_entries {pre post : List (String × β)} {k : String}
    (hkeys : (Assoc.keys (pre ++ (k, x) :: post)).Nodup) [HasFaults β] {view : β → AnyEntity}
    (h : AgreeOff rest (.entity (view x)) (.entity (view y))) :
    AgreeOff (.key k :: rest) (.field (.namedParts β) view (pre ++ (k, x) :: post))
      (.field (.namedParts β) view (pre ++ (k, y) :: post)) := by
  have hkeys' : (Assoc.keys (pre ++ (k, y) :: post)).Nodup := by simpa [Assoc.keys] using hkeys
  refine agreeOff_cons (c := .entity (view x)) (d := .entity (view y)) ?_ (fun key hkey => ?_)
    ?_ ?_ h
  · simp [Spot.childKeys, Shape.childKeys]
  · cases key with
    | field | index | prior => rfl
    | key j =>
        have hne : k ≠ j := fun heq => hkey (congrArg FaultKey.key heq.symm)
        show ((Assoc.get? j _).map _) = ((Assoc.get? j _).map _)
        rw [Assoc.get?_append, Assoc.get?_append, Assoc.get?_cons, Assoc.get?_cons, if_neg hne,
          if_neg hne]
  · show ((Assoc.get? k _).map _) = _
    rw [(Assoc.get?_eq_some_iff hkeys).mpr (List.mem_append_right _ List.mem_cons_self)]
    rfl
  · show ((Assoc.get? k _).map _) = _
    rw [(Assoc.get?_eq_some_iff hkeys').mpr (List.mem_append_right _ List.mem_cons_self)]
    rfl

/-- Trees of lists that differ at one place only. -/
theorem outside_indexed {ts us : List FaultTree} {t u : FaultTree}
    (h : t.outside rest = u.outside rest) :
    (FaultTree.merge none (FaultTree.indexed 0 (ts ++ t :: us))).outside
        (.index ts.length :: rest) =
      (FaultTree.merge none (FaultTree.indexed 0 (ts ++ u :: us))).outside
        (.index ts.length :: rest) := by
  have hkeys := FaultTree.nodup_keys_indexed 0 (ts ++ t :: us)
  rw [FaultTree.indexed_append, FaultTree.indexed, Nat.zero_add] at hkeys
  rw [FaultTree.indexed_append, FaultTree.indexed_append, FaultTree.indexed, FaultTree.indexed,
    Nat.zero_add]
  exact FaultTree.outside_merge hkeys h

end

namespace Shape

open Document (sequence mapping)

/-- A list that is read from a sequence holds what each item is read as. -/
theorem content_loaded_list {α : Type} (reader : ItemReader α) (items : List Document) :
    (list α).content ((list α).loaded reader (sequence items)) =
      items.map fun d => (reader.element d).1 := by
  show [] ++ (items.map reader.element).map (·.1) = _
  rw [List.nil_append, List.map_map]
  rfl

/-- It has the fault of each item at its place. -/
theorem faults_loaded_list {α : Type} (reader : ItemReader α) (items : List Document) :
    (list α).faults ((list α).loaded reader (sequence items)) =
      .merge none (FaultTree.indexed 0
        (items.map fun d => ListSlot.elementFaults (reader.element d))) := by
  have h := faults_elements (items.map reader.element)
  rwa [List.map_map] at h

section

variable {α : Type} [HasFaults α] (reader : ItemReader α)

/-- A list of parts that is read from a sequence holds what each item is read as. -/
theorem content_loaded_parts (items : List Document) :
    (parts α).content ((parts α).loaded reader (sequence items)) = items.map reader.part :=
  content_parts reader.part items

/-- It has the tree of each part at its place. -/
theorem faults_loaded_parts (items : List Document) :
    (parts α).faults ((parts α).loaded reader (sequence items)) =
      .merge none (FaultTree.indexed 0 (items.map fun d => HasFaults.faults (reader.part d))) :=
  faults_parts reader.part items

/-- A map of parts that is read from a mapping holds what each entry is read as, under its key. -/
theorem content_loaded_namedParts {entries : List (String × Document)}
    (h : (Assoc.keys entries).Nodup) :
    (namedParts α).content ((namedParts α).loaded reader (mapping entries)) =
      entries.map fun e => (e.1, reader.part e.2) :=
  content_namedParts reader.part h

/-- It has the tree of each part under its key. -/
theorem faults_loaded_namedParts {entries : List (String × Document)}
    (h : (Assoc.keys entries).Nodup) :
    (namedParts α).faults ((namedParts α).loaded reader (mapping entries)) =
      .merge none (entries.map fun e => (.key e.1, HasFaults.faults (reader.part e.2))) :=
  faults_namedParts reader.part h

end

/-- An element of a list of plain values. -/
theorem loaded_place_list {α : Type} {reader : ItemReader α} {pre post : List Document}
    (e e' : Document) :
    (list α).LoadedAgree () reader [.index pre.length] (sequence (pre ++ e :: post))
      (sequence (pre ++ e' :: post)) := by
  unfold LoadedAgree
  rw [content_loaded_list, content_loaded_list, faults_loaded_list, faults_loaded_list]
  simp only [List.map_append, List.map_cons]
  constructor
  · rw [← List.length_map fun d => (reader.element d).1]
    refine agreeOff_places (g := Spot.element α) (fun j => rfl) (fun j => rfl) (fun k hk => ?_)
      (by simp [Spot.childKeys, childKeys]) (agreeOff_nil _ _)
    cases k with
    | index j => exact absurd rfl (hk j)
    | field | key | prior => rfl
  · rw [← List.length_map fun d => ListSlot.elementFaults (reader.element d)]
    exact outside_indexed (FaultTree.outside_nil _ _)

/-- An element of a list of parts. -/
theorem loaded_place_parts {α : Type} [HasFaults α] {view : α → AnyEntity} {reader : ItemReader α}
    {pre post : List Document} {e e' : Document} {rest : FaultPath}
    (hagree : AgreeOff rest (.entity (view (reader.part e))) (.entity (view (reader.part e'))))
    (hfaults : (HasFaults.faults (reader.part e)).outside rest =
      (HasFaults.faults (reader.part e')).outside rest) :
    (parts α).LoadedAgree view reader (.index pre.length :: rest) (sequence (pre ++ e :: post))
      (sequence (pre ++ e' :: post)) := by
  rw [LoadedAgree, content_loaded_parts, content_loaded_parts, faults_loaded_parts,
    faults_loaded_parts]
  simp only [List.map_append, List.map_cons]
  constructor
  · rw [← List.length_map reader.part]
    refine agreeOff_places (g := fun a => Spot.entity (view a)) (fun j => rfl) (fun j => rfl)
      (fun k hk => ?_) (by simp [Spot.childKeys, childKeys]) hagree
    cases k with
    | index j => exact absurd rfl (hk j)
    | field | key | prior => rfl
  · rw [← List.length_map fun d => HasFaults.faults (reader.part d)]
    exact outside_indexed hfaults

/-- An entry of a map of parts. -/
theorem loaded_place_namedParts {α : Type} [HasFaults α] {view : α → AnyEntity}
    {reader : ItemReader α} {pre post : List (String × Document)} {k : String} {e e' : Document}
    (hkeys : (Assoc.keys (pre ++ (k, e) :: post)).Nodup) {rest : FaultPath}
    (hagree : AgreeOff rest (.entity (view (reader.part e))) (.entity (view (reader.part e'))))
    (hfaults : (HasFaults.faults (reader.part e)).outside rest =
      (HasFaults.faults (reader.part e')).outside rest) :
    (namedParts α).LoadedAgree view reader (.key k :: rest) (mapping (pre ++ (k, e) :: post))
      (mapping (pre ++ (k, e') :: post)) := by
  have hkeys' : (Assoc.keys (pre ++ (k, e') :: post)).Nodup := by simpa [Assoc.keys] using hkeys
  rw [LoadedAgree, content_loaded_namedParts reader hkeys, content_loaded_namedParts reader hkeys',
    faults_loaded_namedParts reader hkeys, faults_loaded_namedParts reader hkeys']
  simp only [List.map_append, List.map_cons]
  constructor
  · refine agreeOff_entries ?_ hagree
    simpa [Assoc.keys, Function.comp_def] using hkeys
  · refine FaultTree.outside_merge ?_ hfaults
    have hnamed := FaultTree.nodup_keys_named hkeys fun e => HasFaults.faults (reader.part e.2)
    rwa [List.map_append, List.map_cons] at hnamed

end Shape

/-- An element of a list or map stands at its place or under its key. -/
theorem Shape.loaded_element {s : Shape} {key : FaultKey} (hkey : s.HasElement key)
    {view : s.PartView} {reader : s.Reader} {rest : FaultPath}
    (h : rest = [] ∨ s.IsolatedAt view reader rest) {d value d' : Document} (hd : d.WellFormed)
    (hreplace : d.replace? (key :: rest) value = some d') :
    s.LoadedAgree view reader (key :: rest) d d' := by
  cases s with
  | required | optional | requiredPart | optionalPart => cases key <;> cases hkey
  | list α =>
      cases key with
      | field | key | prior => cases hkey
      | index i =>
          -- nothing stands below a plain value, so the path ends here
          obtain rfl : rest = [] := h.resolve_right id
          obtain ⟨items, e, e', rfl, hitem, -, rfl⟩ := Document.replace?_sequence hreplace
          obtain ⟨pre, post, rfl, rfl, hset⟩ := exists_split_of_getElem? hitem
          rw [hset]
          exact loaded_place_list e e'
  | parts α =>
      cases key with
      | field | key | prior => cases hkey
      | index i =>
          obtain ⟨items, e, e', rfl, hitem, hrest, rfl⟩ := Document.replace?_sequence hreplace
          have he : e.WellFormed :=
            Document.wellFormed_sequence.mp hd e (List.mem_of_getElem? hitem)
          obtain ⟨hagree, hfaults⟩ := ItemReader.part_isolated h he hrest
          obtain ⟨pre, post, rfl, rfl, hset⟩ := exists_split_of_getElem? hitem
          rw [hset]
          exact loaded_place_parts hagree hfaults
  | namedParts α =>
      cases key with
      | field | index | prior => cases hkey
      | key k =>
          obtain ⟨entries, e, e', rfl, hentry, hrest, rfl⟩ :=
            Document.replace?_mapping (Or.inr hreplace)
          rw [Document.wellFormed_mapping] at hd
          have he : e.WellFormed := hd.2 (k, e) (Assoc.mem_of_get?_eq_some hentry)
          obtain ⟨hagree, hfaults⟩ := ItemReader.part_isolated h he hrest
          obtain ⟨pre, post, rfl, hinsert⟩ := Assoc.exists_split_of_get? hentry
          rw [hinsert]
          exact loaded_place_namedParts hd.1 hagree hfaults

/-! ### Entities -/

/-- What a position is to the field that its first key names. -/
theorem IsPosition.cases_field {types : List EntityType} {p : FaultPath} (hp : IsPosition types p) :
    ∃ name field rest, p = .field name :: rest ∧ findField? types name = some field ∧
      (rest = [] ∨
        (field.1.layout.shape field.2).IsSingle ∧ IsPosition (field.1.parts field.2) rest ∨
        ∃ key below, rest = key :: below ∧ (field.1.layout.shape field.2).HasElement key ∧
          (below = [] ∨ IsPosition (field.1.parts field.2) below)) := by
  cases hp with
  | field h => exact ⟨_, _, _, rfl, h, Or.inl rfl⟩
  | belowPart h hs hrest => exact ⟨_, _, _, rfl, h, Or.inr (Or.inl ⟨hs, hrest⟩)⟩
  | element h hkey => exact ⟨_, _, _, rfl, h, Or.inr (Or.inr ⟨_, _, rfl, hkey, Or.inl rfl⟩)⟩
  | belowElement h hkey hrest =>
      exact ⟨_, _, _, rfl, h, Or.inr (Or.inr ⟨_, _, rfl, hkey, Or.inr hrest⟩)⟩

/-- Trees of entities that differ in one field only. -/
theorem outside_fieldTrees {L : Layout} {trees trees' : L.Field → FaultTree} {f : L.Field}
    (hother : ∀ g, g ≠ f → trees g = trees' g) {rest : FaultPath}
    (h : (trees f).outside rest = (trees' f).outside rest) :
    (FaultTree.merge none (L.fieldTrees trees)).outside (L.key f :: rest) =
      (FaultTree.merge none (L.fieldTrees trees')).outside (L.key f :: rest) := by
  obtain ⟨pre, post, hfields⟩ := List.append_of_mem (L.mem_fields f)
  have hnodup := L.nodup_fields
  rw [hfields, List.nodup_append, List.nodup_cons] at hnodup
  have hpre : pre.map (fun g => (L.key g, trees g)) = pre.map fun g => (L.key g, trees' g) := by
    refine List.map_congr_left fun g hg => ?_
    rw [hother g fun heq => hnodup.2.2 g hg f List.mem_cons_self heq]
  have hpost : post.map (fun g => (L.key g, trees g)) = post.map fun g => (L.key g, trees' g) := by
    refine List.map_congr_left fun g hg => ?_
    rw [hother g fun heq => hnodup.2.1.1 (heq ▸ hg)]
  have hkeys := L.nodup_keys_fieldTrees trees
  rw [Layout.fieldTrees, hfields, List.map_append, List.map_cons] at hkeys ⊢
  unfold Layout.fieldTrees
  rw [hfields, List.map_append, List.map_cons, ← hpre, ← hpost]
  exact FaultTree.outside_merge hkeys h

section

variable {t : EntityType} {readers : t.layout.Readers} {f : t.layout.Field} {rest : FaultPath}

/-- What two builders hold in a field agrees outside a path. -/
def Builder.AgreeAt (f : t.layout.Field) (p : FaultPath) (b b' : Builder t.layout) : Prop :=
  AgreeOff p (.field _ (t.partView f) ((t.layout.shape f).content (b.slot f)))
      (.field _ (t.partView f) ((t.layout.shape f).content (b'.slot f))) ∧
    ((t.layout.shape f).faults (b.slot f)).outside p =
      ((t.layout.shape f).faults (b'.slot f)).outside p

/-- Records that differ in one field only. -/
theorem Builder.toRecord_agree {b b' : Builder t.layout}
    (hother : ∀ g, g ≠ f → b.slot g = b'.slot g) (h : AgreeAt f rest b b') :
    AgreeOff (t.layout.key f :: rest) (.entity ⟨t, b.toRecord⟩) (.entity ⟨t, b'.toRecord⟩) ∧
      b.toRecord.faults.outside (t.layout.key f :: rest) =
        b'.toRecord.faults.outside (t.layout.key f :: rest) := by
  constructor
  · refine agreeOff_cons rfl (fun k hk => ?_) ?_ ?_ h.1
    · cases k with
      | index | key | prior => rfl
      | field name =>
          show (t.layout.field? name).map _ = (t.layout.field? name).map _
          cases hname : t.layout.field? name with
          | none => rfl
          | some g =>
              have hg : g ≠ f := by
                rintro rfl
                exact hk (congrArg FaultKey.field (Layout.name_of_field? hname).symm)
              show some (Spot.field _ _ ((t.layout.shape g).content (b.slot g))) = _
              rw [hother g hg]
              rfl
    · show (t.layout.field? (t.layout.name f)).map _ = _
      rw [Layout.field?_name]
      rfl
    · show (t.layout.field? (t.layout.name f)).map _ = _
      rw [Layout.field?_name]
      rfl
  · exact outside_fieldTrees (fun g hg => by rw [hother g hg]) h.2

/-- Entries under other names do not matter to a field. -/
theorem Builder.loadedSlot_insert {name : String} {entries : List (String × Document)}
    (h : t.layout.name f ≠ name) (d : Document) :
    loadedSlot readers (Assoc.insert name d entries) f = loadedSlot readers entries f := by
  rw [loadedSlot, loadedSlot, Document.present?, Document.present?, Assoc.get?_insert,
    if_neg h.symm]

/-- What a field holds in the end if its entry is not null. -/
theorem Builder.settled_loadedSlot {entries : List (String × Document)} {d : Document}
    (hd : Assoc.get? (t.layout.name f) entries = some d) (hnull : d.isNull = false) :
    (t.layout.shape f).settled (t.layout.key f) (loadedSlot readers entries f) =
      (t.layout.shape f).loaded (readers f) d := by
  have hpresent : Document.present? (t.layout.name f) entries = some d := by
    unfold Document.present?
    rw [hd, Option.filter_some, hnull]
    rfl
  unfold loadedSlot
  rw [hpresent]
  exact Shape.settled_of_not_isMissing _ (Shape.isMissing_loaded _ _ _)

/-- Replacing what is at or below the entry of a field leaves what is loaded into the field the same
outside the path, since all that is loaded comes from the entry. -/
theorem Builder.loaded_agreeAt {entries : List (String × Document)} {e e' value : Document}
    (he : Assoc.get? (t.layout.name f) entries = some e)
    (hreplace : e.replace? rest value = some e')
    (h : rest ≠ [] → (t.layout.shape f).LoadedAgree (t.partView f) (readers f) rest e e') :
    AgreeAt f rest (loaded .tolerant readers entries).settled
      (loaded .tolerant readers (Assoc.insert (t.layout.name f) e' entries)).settled := by
  cases rest with
  | nil => exact ⟨agreeOff_nil _ _, FaultTree.outside_nil _ _⟩
  | cons key below =>
      obtain ⟨hnull, hnull'⟩ := Document.isNull_eq_false_of_replace? hreplace
      have hnew : Assoc.get? (t.layout.name f) (Assoc.insert (t.layout.name f) e' entries) =
          some e' := by rw [Assoc.get?_insert, if_pos rfl]
      simp only [AgreeAt, settled, loaded]
      rw [settled_loadedSlot he hnull, settled_loadedSlot hnew hnull']
      exact h (List.cons_ne_nil _ _)

/-- Replacing what is at a position below an entity. -/
theorem loadedRecord_isolated (readers : t.layout.Readers) {types : List EntityType}
    (hown : ∀ f, findField? types (t.layout.name f) = some ⟨t, f⟩) {p : FaultPath}
    (hp : IsPosition types p)
    (hfields : ∀ f below, below.length < p.length → IsPosition (t.parts f) below →
      (t.layout.shape f).IsolatedAt (t.partView f) (readers f) below)
    {entries : List (String × Document)} (hd : (Document.mapping entries).WellFormed)
    {value d' : Document} (hreplace : (Document.mapping entries).replace? p value = some d') :
    ∃ entries', d' = .mapping entries' ∧ Assoc.keys entries' = Assoc.keys entries ∧
      AgreeOff p (.entity ⟨t, Layout.loadedRecord readers entries⟩)
        (.entity ⟨t, Layout.loadedRecord readers entries'⟩) ∧
      (Layout.loadedRecord readers entries).faults.outside p =
        (Layout.loadedRecord readers entries').faults.outside p := by
  obtain ⟨name, field, rest, rfl, hname, hrest⟩ := hp.cases_field
  obtain ⟨_, e, e', heq, he, hsub, rfl⟩ := Document.replace?_mapping (Or.inl hreplace)
  cases heq
  have hmem : (name, e) ∈ entries := Assoc.mem_of_get?_eq_some he
  refine ⟨_, rfl, Assoc.keys_insert_of_mem (Assoc.mem_keys_of_mem hmem), ?_⟩
  cases hf : t.layout.field? name with
  | none =>
      -- the position is one of another kind of configuration, which is not read
      have hslots : Builder.loadedSlot readers (Assoc.insert name e' entries) =
          Builder.loadedSlot readers entries := by
        funext f
        refine Builder.loadedSlot_insert (fun hfname => ?_) e'
        rw [← hfname, Layout.field?_name] at hf
        cases hf
      unfold Layout.loadedRecord Builder.loaded
      rw [hslots]
      exact ⟨agreeOff_refl _ _, rfl⟩
  | some f =>
      obtain rfl := Layout.name_of_field? hf
      obtain rfl : ⟨t, f⟩ = field := Option.some.inj ((hown f).symm.trans hname)
      have hloaded : rest ≠ [] →
          (t.layout.shape f).LoadedAgree (t.partView f) (readers f) rest e e' := by
        intro hne
        have hwf : e.WellFormed := (Document.wellFormed_mapping.mp hd).2 _ hmem
        rcases hrest with hnil | ⟨hsingle, hpart⟩ | ⟨key, below, rfl, hkey, hbelow⟩
        · exact absurd hnil hne
        · exact Shape.loaded_part hsingle (hfields f rest (by simp) hpart) hwf hsub
        · refine Shape.loaded_element hkey (hbelow.imp_right fun hpos => ?_) hwf hsub
          exact hfields f below (by rw [List.length_cons, List.length_cons]; omega) hpos
      refine Builder.toRecord_agree (f := f) (fun g hg => ?_)
        (Builder.loaded_agreeAt he hsub hloaded)
      have hne : t.layout.name g ≠ t.layout.name f :=
        fun heq => hg (t.layout.name_injective g f heq)
      exact congrArg (Shape.settled _ _) (Builder.loadedSlot_insert hne e').symm

end

/-- There are no positions where there are no entities. -/
theorem not_isPosition_nil {p : FaultPath} : ¬ IsPosition [] p := by
  intro hp
  obtain ⟨name, field, rest, -, hname, -⟩ := hp.cases_field
  cases hname

/-- Positions are below mappings, and mappings stay mappings if something below them is replaced. -/
theorem IsPosition.exists_mapping {types : List EntityType} {p : FaultPath}
    (hp : IsPosition types p) {d value d' : Document} (h : d.replace? p value = some d') :
    ∃ entries, d = .mapping entries := by
  obtain ⟨name, field, rest, rfl, -⟩ := hp.cases_field
  obtain ⟨entries, e, e', rfl, -⟩ := Document.replace?_mapping (Or.inl h)
  exact ⟨entries, rfl⟩

/-- To replace something at a position below an entity leaves a mapping. -/
theorem IsPosition.replace?_mapping {types : List EntityType} {p : FaultPath}
    (hp : IsPosition types p) {d value d' : Document} (h : d.replace? p value = some d') :
    ∃ entries, d' = .mapping entries := by
  obtain ⟨name, field, rest, rfl, -⟩ := hp.cases_field
  obtain ⟨entries, e, e', -, -, -, rfl⟩ := Document.replace?_mapping (Or.inl h)
  exact ⟨_, rfl⟩

/-- Readers that read an entity of one type. -/
theorem isolatedAt_of_loadedRecord {α : Type} [HasFaults α] {t : EntityType}
    {view : α → AnyEntity} {read : BuildMode → Document → Reading α} {readers : t.layout.Readers}
    (of : Record t.layout → α) (hview : ∀ r, view (of r) = ⟨t, r⟩)
    (hfaults : ∀ r, HasFaults.faults (of r) = r.faults)
    (hread : ∀ d, tolerantly read d =
      d.asEntries.map fun entries => of (Layout.loadedRecord readers entries))
    (hfields : ∀ f p, IsPosition (t.parts f) p →
      (t.layout.shape f).IsolatedAt (t.partView f) (readers f) p)
    {p : FaultPath} (hp : IsPosition [t] p) : IsolatedAt view read p := by
  intro d value d' hd hreplace
  obtain ⟨entries, rfl⟩ := hp.exists_mapping hreplace
  obtain ⟨entries', rfl, -, hagree, hout⟩ := loadedRecord_isolated readers
    t.owns.findField?_eq hp (fun f below _ => hfields f below) hd hreplace
  refine ⟨_, _, hread _, hread _, ?_, ?_⟩
  · rw [hview, hview]
    exact hagree
  · rw [hfaults, hfaults]
    exact hout

/-- Bounds are read field by field, and nothing stands below a field. -/
theorem Bounds.read_isolated {p : FaultPath} (hp : IsPosition [.bounds] p) :
    IsolatedAt (fun b => ⟨.bounds, Entity.toRecord b⟩) Bounds.read p :=
  isolatedAt_of_loadedRecord (t := .bounds) (Entity.ofRecord (E := Bounds))
    (fun r => congrArg (Sigma.mk EntityType.bounds) (Entity.toRecord_ofRecord (E := Bounds) r))
    (Entity.faults_ofRecord (E := Bounds))
    (Entity.tolerantly_read Bounds.readers_tolerate)
    (fun _ _ hp => absurd hp not_isPosition_nil) hp

/-- Ports are read field by field, and nothing stands below a field. -/
theorem Port.read_isolated {p : FaultPath} (hp : IsPosition [.port] p) :
    IsolatedAt (fun b => ⟨.port, Entity.toRecord b⟩) Port.reader.read p :=
  isolatedAt_of_loadedRecord (t := .port) (Entity.ofRecord (E := Port))
    (fun r => congrArg (Sigma.mk EntityType.port) (Entity.toRecord_ofRecord (E := Port) r))
    (Entity.faults_ofRecord (E := Port))
    (Entity.tolerantly_read Port.readers_tolerate)
    (fun _ _ hp => absurd hp not_isPosition_nil) hp

/-- Connections are read field by field, and their bend points one by one. -/
theorem Connection.read_isolated {p : FaultPath} (hp : IsPosition [.connection] p) :
    IsolatedAt (fun c => ⟨.connection, Entity.toRecord c⟩) Connection.reader.read p :=
  isolatedAt_of_loadedRecord (t := .connection) (Entity.ofRecord (E := Connection))
    (fun r =>
      congrArg (Sigma.mk EntityType.connection) (Entity.toRecord_ofRecord (E := Connection) r))
    (Entity.faults_ofRecord (E := Connection))
    (Entity.tolerantly_read Connection.readers_tolerate)
    (fun _ _ hp => absurd hp not_isPosition_nil) hp

/-- Annotations are read field by field, and below them there are bounds. -/
theorem Annotation.read_isolated {p : FaultPath} (hp : IsPosition [EntityType.annotation] p) :
    IsolatedAt (fun a => ⟨EntityType.annotation, Entity.toRecord a⟩) Annotation.reader.read p :=
  isolatedAt_of_loadedRecord (t := EntityType.annotation) (Entity.ofRecord (E := Annotation))
    (fun r =>
      congrArg (Sigma.mk EntityType.annotation) (Entity.toRecord_ofRecord (E := Annotation) r))
    (Entity.faults_ofRecord (E := Annotation))
    (Entity.tolerantly_read Annotation.readers_tolerate)
    (fun f _ hp => by
      cases f with
      | text | borderSize => exact absurd hp not_isPosition_nil
      | bounds => exact Bounds.read_isolated hp) hp

/-- A configuration with something at a position has an entry for children or for a value. -/
theorem Config.contains_of_isPosition {p : FaultPath}
    (hp : IsPosition [.configMap, .configValue] p) {entries : List (String × Document)}
    {value d' : Document} (h : (Document.mapping entries).replace? p value = some d') :
    Assoc.contains (ConfigMap.layout.name .children) entries = true ∨
      Assoc.contains (ConfigValue.layout.name .value) entries = true := by
  obtain ⟨name, ⟨t, f⟩, rest, rfl, hname, -⟩ := hp.cases_field
  obtain ⟨_, e, e', heq, he, -, -⟩ := Document.replace?_mapping (Or.inl h)
  cases heq
  have hcontains : Assoc.contains name entries = true := by
    unfold Assoc.contains
    rw [he]
    rfl
  obtain ⟨ht, rfl⟩ := findField?_eq_some hname
  rcases List.mem_cons.mp ht with rfl | ht
  · cases f
    exact Or.inl hcontains
  · obtain rfl := List.mem_singleton.mp ht
    cases f
    exact Or.inr hcontains

/-- Configurations of either kind, by induction on the path. -/
theorem Config.read_isolated {p : FaultPath} (hp : IsPosition [.configMap, .configValue] p) :
    IsolatedAt Config.view Config.read p := by
  -- what is left of a position below a child is shorter by two keys, hence the strong induction
  induction hlength : p.length using Nat.strongRecOn generalizing p with
  | ind n ih =>
      intro d value d' hd hreplace
      obtain ⟨entries, rfl⟩ := hp.exists_mapping hreplace
      obtain ⟨entries', rfl, hkeys, hmap, hmapFaults⟩ :=
        loadedRecord_isolated (t := .configMap) (ConfigMap.readers Config.read)
          Owns.configMap.findField?_eq hp (fun f below hbelow hpos => by
            cases f
            exact ih below.length (hlength ▸ hbelow) hpos rfl) hd hreplace
      obtain ⟨_, heq, -, hvalue, hvalueFaults⟩ :=
        loadedRecord_isolated (t := .configValue) ConfigValue.readers
          Owns.configValue.findField?_eq hp (fun f below _ hpos => by
            cases f
            exact absurd hpos not_isPosition_nil) hd hreplace
      cases heq
      have hcontains : ∀ k, Assoc.contains k entries' = Assoc.contains k entries := fun k => by
        rw [Bool.eq_iff_iff, Assoc.contains, Assoc.contains, Assoc.get?_isSome_iff,
          Assoc.get?_isSome_iff, hkeys]
      simp only [tolerantly_read, Document.asEntries_mapping, Except.bind, loadedEntries, hcontains]
      by_cases hchildren : Assoc.contains (ConfigMap.layout.name .children) entries
      · simp only [if_pos hchildren]
        exact ⟨_, _, rfl, rfl, hmap, hmapFaults⟩
      · by_cases hscalar : Assoc.contains (ConfigValue.layout.name .value) entries
        · simp only [if_neg hchildren, if_pos hscalar]
          exact ⟨_, _, rfl, rfl, hvalue, hvalueFaults⟩
        · exact absurd (contains_of_isPosition hp hreplace) (not_or.mpr ⟨hchildren, hscalar⟩)

/-- Nodes are read field by field; below them there are bounds, ports and settings. -/
theorem Node.read_isolated {p : FaultPath} (hp : IsPosition [.node] p) :
    IsolatedAt (fun n => ⟨.node, Entity.toRecord n⟩) Node.reader.read p :=
  isolatedAt_of_loadedRecord (t := .node) (Entity.ofRecord (E := Node))
    (fun r => congrArg (Sigma.mk EntityType.node) (Entity.toRecord_ofRecord (E := Node) r))
    (Entity.faults_ofRecord (E := Node))
    (Entity.tolerantly_read Node.readers_tolerate)
    (fun f _ hp => by
      cases f with
      | id | name | kind => exact absurd hp not_isPosition_nil
      | bounds => exact Bounds.read_isolated hp
      | inPorts | outPorts => exact Port.read_isolated hp
      | modelSettings => exact Config.read_isolated hp) hp

/-! ### Loading -/

/-- A workflow with everything that stands in it. -/
def Workflow.spot (w : Workflow) : Spot := .entity ⟨.workflow, Entity.toRecord w⟩

/-- Whether a diagnostic is about something at a path or below it. -/
def Diagnostic.isBelow (p : FaultPath) (d : Diagnostic) : Bool :=
  match d.position with
  | .path q => p.isPrefixOf q
  | .location _ _ => false

/-- The diagnostics that are not below a path are those of the faults outside it. -/
theorem FaultTree.diagnostics_filter (p : FaultPath) (source : String) (t : FaultTree) :
    (t.diagnostics source).filter (fun d => !d.isBelow p) =
      (t.outside p).map fun e => ⟨e.2.code, source, .path e.1, e.2.message⟩ := by
  unfold diagnostics
  rw [List.filter_map, outside]
  rfl

/-- Workflows are read field by field; replacing what is at a position changes what is read there
and below only. -/
theorem Workflow.read_isolated {p : FaultPath} (hp : IsPosition [.workflow] p)
    {entries entries' : List (String × Document)} (hd : (Document.mapping entries).WellFormed)
    {value : Document}
    (hreplace : (Document.mapping entries).replace? p value = some (.mapping entries'))
    {w w' : Workflow} (hw : Workflow.read .tolerant entries = .ok w)
    (hw' : Workflow.read .tolerant entries' = .ok w') :
    AgreeOff p w.spot w'.spot ∧ w.faults.outside p = w'.faults.outside p := by
  obtain ⟨_, heq, -, hagree, hout⟩ := loadedRecord_isolated (t := .workflow)
    Workflow.readers (EntityType.workflow.owns).findField?_eq hp
    (fun f below _ hpos => by
      cases f with
      | name => exact absurd hpos not_isPosition_nil
      | nodes => exact Node.read_isolated hpos
      | connections => exact Connection.read_isolated hpos
      | annotations => exact Annotation.read_isolated hpos) hd hreplace
  cases heq
  rw [Workflow.read_tolerant] at hw hw'
  cases hw
  cases hw'
  unfold spot
  rw [Entity.toRecord_ofRecord, Entity.toRecord_ofRecord]
  exact ⟨hagree, hout⟩

/-- Putting another value at one position of a document leaves the tolerant load as it is everywhere
else: what stands away from the position is the same, lists keep their length and maps their keys,
and so do entities their fields, unless they are at the position or below it, and the diagnostics
that are not about the position or anything below it are the same in the same order. -/
theorem load_isolated (source : String) {entries : List (String × Document)}
    (h : (Document.mapping entries).WellFormed) {p : FaultPath} (hp : IsPosition [.workflow] p)
    {value d' : Document} (hreplace : (Document.mapping entries).replace? p value = some d') :
    ∃ l l', LoadOptions.loadDocument ⟨source, .tolerant⟩ (.mapping entries) = .ok l ∧
      LoadOptions.loadDocument ⟨source, .tolerant⟩ d' = .ok l' ∧
      (∀ q, ¬ p <+: q → ¬ q <+: p → l.workflow.spot.at? q = l'.workflow.spot.at? q) ∧
      (∀ q, ¬ p <+: q →
        (l.workflow.spot.at? q).map childKeys = (l'.workflow.spot.at? q).map childKeys) ∧
      l.diagnostics.filter (fun d => !d.isBelow p) =
        l'.diagnostics.filter (fun d => !d.isBelow p) := by
  obtain ⟨entries', rfl⟩ := hp.replace?_mapping hreplace
  obtain ⟨w, hw, hload⟩ := LoadOptions.loadDocument_tolerant source entries
  obtain ⟨w', hw', hload'⟩ := LoadOptions.loadDocument_tolerant source entries'
  obtain ⟨hagree, hout⟩ := Workflow.read_isolated hp h hreplace hw hw'
  refine ⟨_, _, hload, hload', fun q hpq => (hagree q hpq).2, fun q hpq => (hagree q hpq).1, ?_⟩
  show (w.faults.diagnostics source).filter _ = (w'.faults.diagnostics source).filter _
  rw [FaultTree.diagnostics_filter, FaultTree.diagnostics_filter, hout]

/-- The path leads through the nodes and the settings of one to a value there. -/
theorem isPosition_nestedFaultPath : IsPosition [.workflow] nestedFaultPath := by
  have hnodes : findField? [.workflow] "nodes" = some ⟨.workflow, .nodes⟩ := rfl
  have hsettings : findField? [.node] "model_settings" = some ⟨.node, .modelSettings⟩ := rfl
  have hchildren : findField? [.configMap, .configValue] "children" =
      some ⟨.configMap, .children⟩ := rfl
  have hvalue : findField? [.configMap, .configValue] "value" = some ⟨.configValue, .value⟩ := rfl
  have hn : (Workflow.layout.shape .nodes).HasElement (.key "n") := trivial
  have hk : (ConfigMap.layout.shape .children).HasElement (.key "k") := trivial
  exact .belowElement hnodes hn
    (.belowPart hsettings trivial (.belowElement hchildren hk (.field hvalue)))

/-- The value of a configuration inside a node, put right. -/
theorem load_isolated_nestedFault :
    (Document.mapping LoadOptions.nestedFault).WellFormed ∧
    IsPosition [.workflow] nestedFaultPath ∧
    ∃ d', (Document.mapping LoadOptions.nestedFault).replace? nestedFaultPath (.bool true) =
        some d' ∧
      ∃ l l', LoadOptions.loadDocument ⟨"w", .tolerant⟩ (.mapping LoadOptions.nestedFault) = .ok l ∧
        LoadOptions.loadDocument ⟨"w", .tolerant⟩ d' = .ok l' ∧
        (∀ q, ¬ nestedFaultPath <+: q → ¬ q <+: nestedFaultPath →
          l.workflow.spot.at? q = l'.workflow.spot.at? q) ∧
        (∀ q, ¬ nestedFaultPath <+: q →
          (l.workflow.spot.at? q).map childKeys = (l'.workflow.spot.at? q).map childKeys) ∧
        l.diagnostics.filter (fun d => !d.isBelow nestedFaultPath) =
          l'.diagnostics.filter (fun d => !d.isBelow nestedFaultPath) :=
  ⟨LoadOptions.wellFormed_nestedFault, isPosition_nestedFaultPath, _, rfl,
    load_isolated "w" LoadOptions.wellFormed_nestedFault isPosition_nestedFaultPath rfl⟩

end Flowsheet
