import Flowsheet.Proofs.Build.Edit
import Flowsheet.Proofs.PortType
import Flowsheet.Proofs.Reading.Sections
import Flowsheet.Proofs.Reading.Values

/-!
# Plain values in loaded workflows

A tolerant load takes every plain value as it is in the document or not at all. A field holds a
value just if its entry denotes that value, a number as the same number and a text as the same text,
and a field that holds nothing although it should has a fault in the place of the value
(`load_reads_scalars`). A point on the way of a connection that is denoted by nothing is replaced by
the origin, with a fault under its index.

What documents denote is said without regard to how they are read: `EntityType.denotes` gives one
relation for each field, and `EntityType.reads` says that the readers decide these relations. From
that `Shape.isFaithful_loaded` says what becomes of one entry.
-/

namespace Flowsheet

open EntityType Spot

/-! ### What documents denote -/

namespace Document

/-- The document is a whole number, and this is its value. -/
def IsNumber (value : Int) (d : Document) : Prop := ∃ n, d = integer n ∧ n.toInt = value

/-- The document is two whole numbers, in order or under their names, and these are the point's. -/
def IsPointAt (c : Coordinate) (d : Document) : Prop :=
  ∃ x y, x.IsNumber c.x.toInt ∧ y.IsNumber c.y.toInt ∧
    (d = sequence [x, y] ∨
      ∃ es, d = mapping es ∧ Assoc.get? "x" es = some x ∧ Assoc.get? "y" es = some y)

/-- The document is of the same variant as the value and equal to it. -/
inductive IsScalarOf : Scalar → Document → Prop where
  /-- A truth value. -/
  | bool (value : Bool) : IsScalarOf (.bool value) (bool value)
  /-- A whole number. -/
  | int (value : Int64) : IsScalarOf (.int value) (integer value)
  /-- A number with a fraction or an exponent. -/
  | double (value : Double) : IsScalarOf (.double value) (float value)
  /-- A text. -/
  | string (value : String) : IsScalarOf (.string value) (string value)

end Document

/-- What a document says that stands for a plain value of a field. -/
@[reducible] def Shape.Meaning : Shape → Type
  | required α | optional α | list α => α → Document → Prop
  | @requiredPart _ _ | @optionalPart _ _ | @parts _ _ | @namedParts _ _ => Unit

/-- Which documents denote which values of a field. -/
def EntityType.denotes : (t : EntityType) → (f : t.layout.Field) → (t.layout.shape f).Meaning
  | workflow, .name | node, .name | port, .name | annotation, .text => fun v d => d = .string v
  | node, .id | bounds, .x | bounds, .y | bounds, .width | bounds, .height
  | connection, .sourceId | connection, .destId | annotation, .borderSize =>
    fun v d => d.IsNumber v.toInt
  | port, .index | connection, .sourcePort | connection, .destPort => fun v d => d.IsNumber v.toNat
  | node, .kind => fun v d => d = .string v.text
  | port, .portType => fun v d => d = .string v.text
  | connection, .deletable => fun v d => d = .bool v
  | connection, .bendPoints => Document.IsPointAt
  | configValue, .value => Document.IsScalarOf
  | workflow, .nodes | workflow, .connections | workflow, .annotations => ()
  | node, .bounds | node, .inPorts | node, .outPorts | node, .modelSettings => ()
  | annotation, .bounds | configMap, .children => ()

/-! ### Readers decide what is denoted -/

namespace Document

/-- A number is narrowed to the signed one with the same value, if there is one. -/
theorem narrowSigned_eq_some_iff {n : Int64} {v : Int32} :
    narrowSigned n = some v ↔ n.toInt = v.toInt := by
  unfold narrowSigned
  split
  · rename_i hrange
    have hvalue : (Int32.ofInt n.toInt).toInt = n.toInt := by
      obtain ⟨hlow, hhigh⟩ := hrange
      exact Int32.toInt_ofInt_of_le hlow (Int.lt_add_one_iff.mpr hhigh)
    rw [Option.some.injEq, ← Int32.toInt_inj, hvalue]
  · rename_i hrange
    refine iff_of_false (fun h => nomatch h) fun hvalue => hrange ?_
    rw [hvalue]
    exact ⟨v.minValue_le_toInt, v.toInt_le⟩

/-- A number is narrowed to the unsigned one with the same value, if there is one. -/
theorem narrowUnsigned_eq_some_iff {n : Int64} {v : UInt32} :
    narrowUnsigned n = some v ↔ n.toInt = v.toNat := by
  have hsize := v.toNat_lt_size
  unfold narrowUnsigned
  split
  · rename_i hrange
    have hvalue : (UInt32.ofNat n.toInt.toNat).toNat = n.toInt.toNat :=
      UInt32.toNat_ofNat_of_lt' (by omega)
    rw [Option.some.injEq, ← UInt32.toNat_inj, hvalue]
    omega
  · rename_i hrange
    refine iff_of_false (fun h => nomatch h) fun hvalue => hrange ?_
    omega

/-- A signed number is read from the integer with its value. -/
theorem asInt32_eq_ok_iff (d : Document) (v : Int32) : d.asInt32 = .ok v ↔ d.IsNumber v.toInt := by
  rw [asInt32, asNumber_eq_ok_iff]
  exact exists_congr fun n => and_congr_right fun _ => narrowSigned_eq_some_iff

/-- An unsigned number is read from the integer with its value. -/
theorem asUInt32_eq_ok_iff (d : Document) (v : UInt32) :
    d.asUInt32 = .ok v ↔ d.IsNumber v.toNat := by
  rw [asUInt32, asNumber_eq_ok_iff]
  exact exists_congr fun n => and_congr_right fun _ => narrowUnsigned_eq_some_iff

/-- A truth value is read from itself. -/
theorem asBool_eq_ok_iff (d : Document) (v : Bool) : d.asBool = .ok v ↔ d = bool v := by
  cases d <;> simp [asBool]

/-- A text is read from itself. -/
theorem asString_eq_ok_iff (d : Document) (v : String) : d.asString = .ok v ↔ d = string v := by
  cases d <;> simp [asString]

/-- A reader of texts reads what a decoder accepts. -/
theorem asString_bind_eq_ok_iff {α : Type} {decode : String → Except FieldError α}
    {text : α → String} (h : ∀ s v, decode s = .ok v ↔ text v = s) (d : Document) (v : α) :
    d.asString.bind decode = .ok v ↔ d = string (text v) := by
  cases d with
  | string s =>
      show decode s = .ok v ↔ _
      rw [h, string.injEq]
      exact eq_comm
  | null | bool _ | integer _ | float _ | sequence _ | mapping _ =>
      refine iff_of_false (fun h => nomatch h) (fun h => nomatch h)

/-- A port type is read from its text. -/
theorem asPortType_eq_ok_iff (d : Document) (v : PortType) :
    d.asPortType = .ok v ↔ d = string v.text :=
  asString_bind_eq_ok_iff PortType.ofText_eq_ok_iff d v

/-- A kind of node is read from its name. -/
theorem asNodeKind_eq_ok_iff (d : Document) (v : NodeKind) :
    d.asNodeKind = .ok v ↔ d = string v.text := by
  refine asString_bind_eq_ok_iff (fun s v => ?_) d v
  constructor
  · intro h
    unfold NodeKind.ofText at h
    split at h
    · rename_i hs
      cases h
      exact hs.symm
    · split at h
      · rename_i hs
        cases h
        exact hs.symm
      · split at h
        · rename_i hs
          cases h
          exact hs.symm
        · cases h
  · rintro rfl
    exact NodeKind.ofText_text v

/-- A plain setting is read from the document of the same shape and value. -/
theorem asScalar_eq_ok_iff (d : Document) (v : Scalar) : d.asScalar = .ok v ↔ d.IsScalarOf v := by
  constructor
  · intro h
    cases d <;> cases h <;> constructor
  · rintro (_ | _ | _ | _) <;> rfl

/-- A point is read from two numbers with the values of its coordinates. -/
theorem pair_eq_ok_iff (x y : Document) (c : Coordinate) :
    pair x y = .ok c ↔ x.IsNumber c.x.toInt ∧ y.IsNumber c.y.toInt := by
  rw [← asInt32_eq_ok_iff, ← asInt32_eq_ok_iff]
  constructor
  · intro h
    obtain ⟨a, ha, hrest⟩ := exists_of_bind_eq_ok h
    obtain ⟨b, hb, hc⟩ := exists_of_bind_eq_ok hrest
    cases hc
    exact ⟨ha, hb⟩
  · rintro ⟨hx, hy⟩
    unfold pair
    rw [hx, hy]
    rfl

/-- A pair denotes the point that is read from it. -/
theorem isPointAt_pair_iff (x y : Document) (c : Coordinate) :
    (sequence [x, y]).IsPointAt c ↔ pair x y = .ok c := by
  rw [pair_eq_ok_iff]
  constructor
  · rintro ⟨x', y', hx, hy, heq | ⟨es, hes, -⟩⟩
    · cases heq
      exact ⟨hx, hy⟩
    · cases hes
  · rintro ⟨hx, hy⟩
    exact ⟨x, y, hx, hy, Or.inl rfl⟩

/-- A mapping denotes the point that is read from its two entries, wherever they stand in it. -/
theorem isPointAt_mapping_iff (es : List (String × Document)) (c : Coordinate) :
    (mapping es).IsPointAt c ↔
      ∃ x y, Assoc.get? "x" es = some x ∧ Assoc.get? "y" es = some y ∧ pair x y = .ok c := by
  constructor
  · rintro ⟨x, y, hx, hy, heq | ⟨es', hes, hxget, hyget⟩⟩
    · cases heq
    · cases hes
      exact ⟨x, y, hxget, hyget, (pair_eq_ok_iff x y c).mpr ⟨hx, hy⟩⟩
  · rintro ⟨x, y, hxget, hyget, hpair⟩
    obtain ⟨hx, hy⟩ := (pair_eq_ok_iff x y c).mp hpair
    exact ⟨x, y, hx, hy, Or.inr ⟨es, rfl, hxget, hyget⟩⟩

/-- A point is read from the documents that denote it: from a pair or from a mapping. -/
theorem asCoordinate_eq_ok_iff (d : Document) (c : Coordinate) :
    d.asCoordinate = .ok c ↔ d.IsPointAt c := by
  have hother : (∀ x y, d ≠ sequence [x, y]) → (∀ es, d ≠ mapping es) → ¬ d.IsPointAt c := by
    rintro hpair hmapping ⟨x, y, -, -, rfl | ⟨es, rfl, -⟩⟩
    · exact hpair x y rfl
    · exact hmapping es rfl
  cases d with
  | sequence items =>
      rcases items with _ | ⟨x, _ | ⟨y, _ | ⟨z, rest⟩⟩⟩
      · exact iff_of_false nofun (hother nofun nofun)
      · exact iff_of_false nofun (hother nofun nofun)
      · exact (isPointAt_pair_iff x y c).symm
      · exact iff_of_false nofun (hother nofun nofun)
  | mapping es =>
      rw [isPointAt_mapping_iff]
      constructor
      · intro h
        obtain ⟨x, hx, hrest⟩ := exists_of_bind_eq_ok h
        obtain ⟨y, hy, hpair⟩ := exists_of_bind_eq_ok hrest
        exact ⟨x, y, entry_eq_ok_iff.mp hx, entry_eq_ok_iff.mp hy, hpair⟩
      · rintro ⟨x, y, hx, hy, hpair⟩
        rw [asCoordinate_of_both hx hy, hpair]
  | null | bool _ | integer _ | float _ | string _ =>
      exact iff_of_false nofun (hother nofun nofun)

end Document

/-- A reader gives a value for a document just if the document denotes the value. -/
def Shape.Reads : (s : Shape) → s.Meaning → s.Reader → Prop
  | required _, denotes, reader | optional _, denotes, reader =>
    ∀ d v, reader d = .ok v ↔ denotes v d
  | list _, denotes, reader => ∀ d v, tolerantly reader.read d = .ok v ↔ denotes v d
  | @requiredPart _ _, _, _ | @optionalPart _ _, _, _ | @parts _ _, _, _
  | @namedParts _ _, _, _ => True

/-- All fields are read so. -/
theorem EntityType.reads (t : EntityType) (f : t.layout.Field) :
    (t.layout.shape f).Reads (t.denotes f) (t.readers f) := by
  cases t with
  | workflow =>
      cases f with
      | name => exact Document.asString_eq_ok_iff
      | nodes | connections | annotations => trivial
  | node =>
      cases f with
      | id => exact Document.asInt32_eq_ok_iff
      | name => exact Document.asString_eq_ok_iff
      | kind => exact Document.asNodeKind_eq_ok_iff
      | bounds | inPorts | outPorts | modelSettings => trivial
  | bounds => cases f <;> exact Document.asInt32_eq_ok_iff
  | port =>
      cases f with
      | index => exact Document.asUInt32_eq_ok_iff
      | portType => exact Document.asPortType_eq_ok_iff
      | name => exact Document.asString_eq_ok_iff
  | connection =>
      cases f with
      | sourceId | destId => exact Document.asInt32_eq_ok_iff
      | sourcePort | destPort => exact Document.asUInt32_eq_ok_iff
      | deletable => exact Document.asBool_eq_ok_iff
      | bendPoints => exact Document.asCoordinate_eq_ok_iff
  | annotation =>
      cases f with
      | text => exact Document.asString_eq_ok_iff
      | bounds => trivial
      | borderSize => exact Document.asInt32_eq_ok_iff
  | configMap =>
      cases f with
      | children => trivial
  | configValue =>
      cases f with
      | value => exact Document.asScalar_eq_ok_iff

/-! ### What becomes of one entry -/

section

variable {α : Type}

/-- A plain value `c`, for which its entity has the tree `t`, is what the entry of its field
denotes, if there is an entry other than null, and is missed with one fault. -/
structure IsFaithful (denotes : α → Document → Prop) (isRequired : Bool) (present : Option Document)
    (c : Option α) (t : Option FaultTree) : Prop where
  /-- The value is denoted by the entry. -/
  value_iff : ∀ v, c = some v ↔ ∃ d, present = some d ∧ denotes v d
  /-- There is a fault if the value is missed, which an optional value is only with an entry. -/
  faulty_iff : t.isSome = true ↔ c = none ∧ (isRequired = true ∨ present ≠ none)
  /-- The fault is that of the value itself. -/
  leaf : ∀ u, t = some u → ∃ fault, u = .leaf fault

/-- Each of the plain values `vs` of a list, for which its entity has the tree `t`, is what the item
in its place denotes, or stands in for it with a fault under its index. -/
structure IsFaithfulList (denotes : α → Document → Prop) (standIn : α) (present : Option Document)
    (vs : List α) (t : FaultTree) : Prop where
  /-- Without a sequence there are no values. -/
  absent : (∀ items, present ≠ some (.sequence items)) → vs = []
  /-- No value is lost, and none is added. -/
  length_eq : ∀ items, present = some (.sequence items) → vs.length = items.length
  /-- What the value in one place is. -/
  value : ∀ items, present = some (.sequence items) → ∀ i d v, items[i]? = some d →
    vs[i]? = some v → (denotes v d ∧ t.child? (.index i) = none) ∨
      ((∀ w, ¬ denotes w d) ∧ v = standIn ∧ ∃ fault, t.child? (.index i) = some (.leaf fault))

end

namespace Shape

/-- The plain values of a field with content `c` and tree `t` are faithful to its entry. -/
def IsFaithful : (s : Shape) → s.Meaning → s.Item → Option Document → s.Content →
    Option FaultTree → Prop
  | required _, denotes, _, present, c, t => Flowsheet.IsFaithful denotes true present c t
  | optional _, denotes, _, present, c, t => Flowsheet.IsFaithful denotes false present c t
  | list _, denotes, standIn, present, c, t =>
    IsFaithfulList denotes standIn present c (t.getD .empty)
  | @requiredPart _ _, _, _, _, _, _ | @optionalPart _ _, _, _, _, _, _ | @parts _ _, _, _, _, _, _
  | @namedParts _ _, _, _, _, _, _ => True

end Shape

section

variable {α : Type} {denotes : α → Document → Prop} {isRequired : Bool} {d : Document}

/-- Where there is no entry there is no value, and a fault just if one is required. -/
theorem isFaithful_absent (fault : Fault) :
    IsFaithful denotes isRequired none none
      ((some (if isRequired then .leaf fault else .empty)).filter fun t => t.hasFaults) := by
  constructor
  · intro v
    exact iff_of_false nofun (fun ⟨d, hd, _⟩ => nomatch hd)
  · cases isRequired <;> simp [FaultTree.hasFaults, FaultTree.isEmpty]
  · cases isRequired <;> simp [FaultTree.hasFaults]

/-- A value that is what the entry denotes is faithful without a fault. -/
theorem isFaithful_of_denotes {v : α} (h : ∀ w, denotes w d ↔ v = w) :
    IsFaithful denotes isRequired (some d) (some v) none := by
  constructor
  · intro w
    rw [Option.some.injEq, ← h w]
    exact ⟨fun hw => ⟨d, rfl, hw⟩, fun ⟨d', hd, hw⟩ => Option.some.inj hd ▸ hw⟩
  · exact iff_of_false nofun (fun hnone => nomatch hnone.1)
  · intro u hu
    cases hu

/-- Where the entry denotes nothing, no value and one fault are faithful. -/
theorem isFaithful_of_not_denotes (h : ∀ w, ¬ denotes w d) (fault : Fault) :
    IsFaithful denotes isRequired (some d) none (some (.leaf fault)) := by
  constructor
  · intro w
    exact iff_of_false nofun (fun ⟨d', hd, hw⟩ => h w (Option.some.inj hd ▸ hw))
  · exact iff_of_true rfl ⟨rfl, Or.inr nofun⟩
  · intro u hu
    cases hu
    exact ⟨fault, rfl⟩

end

namespace Shape

/-- A list that is read from a sequence is faithful, item by item. -/
theorem isFaithfulList_sequence {α : Type} {denotes : α → Document → Prop} {reader : ItemReader α}
    (h : (list α).Reads denotes reader) (items : List Document) :
    IsFaithfulList denotes reader.fallback (some (.sequence items))
      ((list α).content ((list α).loaded reader (.sequence items)))
      ((list α).faults ((list α).loaded reader (.sequence items))) := by
  -- below the list stands a leaf for each element that fell back, at the place of the item
  have hchild : ∀ i d, items[i]? = some d →
      ((list α).faults ((list α).loaded reader (.sequence items))).child? (.index i) =
        (some (ListSlot.elementFaults (reader.element d))).filter fun t => t.hasFaults := by
    intro i d hd
    have hget := FaultTree.get?_indexed 0 i
      (items.map fun d => ListSlot.elementFaults (reader.element d))
    rw [Nat.zero_add, List.getElem?_map, hd] at hget
    rw [faults_loaded_list, FaultTree.child?_merge_of_nodup _ (FaultTree.nodup_keys_indexed _ _),
      hget]
    rfl
  rw [content_loaded_list]
  constructor
  · intro hnone
    exact absurd rfl (hnone items)
  · intro items' hitems
    obtain rfl := Document.sequence.inj (Option.some.inj hitems)
    exact List.length_map _
  · intro items' hitems i d v hd hv
    obtain rfl := Document.sequence.inj (Option.some.inj hitems)
    rw [hchild i d hd]
    rw [List.getElem?_map, hd] at hv
    obtain rfl := Option.some.inj hv
    show (denotes (reader.element d).1 d ∧ _) ∨ _ ∧ (reader.element d).1 = _ ∧ _
    unfold ItemReader.element
    cases hread : tolerantly reader.read d with
    | ok v => exact Or.inl ⟨(h d v).mp hread, rfl⟩
    | error e =>
        refine Or.inr ⟨fun w hw => ?_, rfl, _, rfl⟩
        rw [(h d w).mpr hw] at hread
        cases hread

/-- Where there is no sequence, the empty list is faithful. -/
theorem isFaithfulList_of_eq_nil {α : Type} {denotes : α → Document → Prop} {standIn : α}
    {present : Option Document} (h : ∀ items, present ≠ some (.sequence items)) (t : FaultTree) :
    IsFaithfulList denotes standIn present [] t where
  absent _ := rfl
  length_eq items hitems := absurd hitems (h items)
  value items hitems := absurd hitems (h items)

variable {s : Shape} {denotes : s.Meaning} {reader : s.Reader}

/-- A field without an entry. -/
theorem isFaithful_blank (denotes : s.Meaning) (standIn : s.Item) (fault : Fault) :
    s.IsFaithful denotes standIn none s.blank
      ((some (if s.isRequired then .leaf fault else .empty)).filter fun t => t.hasFaults) := by
  cases s with
  | required | optional => exact isFaithful_absent fault
  | list => exact isFaithfulList_of_eq_nil (fun items heq => by cases heq) _
  | requiredPart | optionalPart | parts | namedParts => trivial

/-- A field that is read from an entry. -/
theorem isFaithful_loaded (h : s.Reads denotes reader) (d : Document) :
    s.IsFaithful denotes (s.fallback reader) (some d) (s.content (s.loaded reader d))
      ((some (s.faults (s.loaded reader d))).filter fun t => t.hasFaults) := by
  cases s with
  | required | optional =>
      simp only [loaded]
      cases hread : reader d with
      | ok v =>
          refine isFaithful_of_denotes fun w => ?_
          rw [← h d w, hread, Except.ok.injEq]
      | error e =>
          refine isFaithful_of_not_denotes (fun w hw => ?_) _
          rw [← h d w, hread] at hw
          cases hw
  | list =>
      cases d with
      | sequence items =>
          have htree : ∀ t : FaultTree, ((some t).filter fun t => t.hasFaults).getD .empty = t :=
            fun t => by cases t <;> rfl
          simp only [IsFaithful, htree]
          exact isFaithfulList_sequence h items
      | null | bool | integer | float | string | mapping =>
          exact isFaithfulList_of_eq_nil (fun items heq => by cases heq) _
  | requiredPart | optionalPart | parts | namedParts => trivial

end Shape

/-! ### Entities -/

/-- What is read from the entries of a mapping is faithful to them. -/
theorem Layout.isFaithful_loadedRecord (t : EntityType) (es : List (String × Document))
    (f : t.layout.Field) :
    (t.layout.shape f).IsFaithful (t.denotes f) (t.standIn f)
      (Document.present? (t.layout.name f) es) ((loadedRecord t.readers es).get f)
      ((loadedRecord t.readers es).faults.field? (t.layout.name f)) := by
  have hget : (loadedRecord t.readers es).get f = (t.layout.shape f).content
      ((t.layout.shape f).settled (t.layout.key f) (Builder.loadedSlot t.readers es f)) := rfl
  rw [faults_loadedRecord, FaultTree.field?_merge_fieldTrees, entryFaults, hget]
  unfold Builder.loadedSlot
  cases Document.present? (t.layout.name f) es with
  | none =>
      rw [Shape.content_settled_unset]
      exact Shape.isFaithful_blank _ _ _
  | some d =>
      rw [Shape.settled_of_not_isMissing _ (Shape.isMissing_loaded _ _ _), ← t.fallback_readers f]
      exact Shape.isFaithful_loaded (t.reads f) d

/-! ### Loading -/

/-- The tolerant load of a mapping succeeds, and wherever a mapping in the document is read as an
entity, what is read from that mapping alone stands at the mapping's path in the workflow. -/
theorem LoadOptions.loadDocument_standsAt (source : String) {entries : List (String × Document)}
    (h : (Document.mapping entries).WellFormed) :
    ∃ l, loadDocument ⟨source, .tolerant⟩ (.mapping entries) = .ok l ∧
      ∀ p t es, StandsAt .workflow entries p t es →
        l.workflow.spot.entityAt? p = some ⟨t, Layout.loadedRecord t.readers es⟩ := by
  obtain ⟨w, hw, hload⟩ := loadDocument_tolerant source entries
  rw [Workflow.read_tolerant] at hw
  cases hw
  refine ⟨_, hload, fun p t es hp => ?_⟩
  rw [Workflow.spot, Entity.toRecord_ofRecord]
  exact (hp.entityAt?_eq h).1

/-- The tolerant load of a mapping succeeds, and wherever a mapping in the document is read as an
entity, that entity stands at the mapping's path in the workflow, and its plain values are what the
entries of the mapping denote. -/
theorem load_reads_scalars (source : String) {entries : List (String × Document)}
    (h : (Document.mapping entries).WellFormed) :
    ∃ l, LoadOptions.loadDocument ⟨source, .tolerant⟩ (.mapping entries) = .ok l ∧
      ∀ p t es, StandsAt .workflow entries p t es →
        ∃ r : Record t.layout, l.workflow.spot.entityAt? p = some ⟨t, r⟩ ∧
          ∀ f, (t.layout.shape f).IsFaithful (t.denotes f) (t.standIn f)
            (Document.present? (t.layout.name f) es) (r.get f)
            (r.faults.field? (t.layout.name f)) := by
  obtain ⟨l, hload, hstands⟩ := LoadOptions.loadDocument_standsAt source h
  refine ⟨l, hload, fun p t es hp => ⟨_, hstands p t es hp, Layout.isFaithful_loadedRecord t es⟩⟩

/-- A workflow with a node whose number is too great by one, and a connection that starts at the
least number there is and goes by a point and by a single number. -/
def edgeFlow : List (String × Document) :=
  [("nodes", .mapping [("a", .mapping [("id", .integer 2147483648)])]),
    ("connections", .sequence [.mapping [("source_id", .integer (-2147483648)),
      ("bend_points", .sequence [.sequence [.integer 1, .integer 2], .integer 3])]])]

/-- The node's number is missed with a fault, and the connection's is there without one. Its second
point is replaced by the origin. -/
theorem load_reads_scalars_edgeFlow :
    (Document.mapping edgeFlow).WellFormed ∧
    ∃ l, LoadOptions.loadDocument ⟨"w", .tolerant⟩ (.mapping edgeFlow) = .ok l ∧
      ∃ (a : Record Node.layout) (c : Record Connection.layout),
        l.workflow.spot.entityAt? [.field "nodes", .key "a"] = some ⟨.node, a⟩ ∧
        l.workflow.spot.entityAt? [.field "connections", .index 0] = some ⟨.connection, c⟩ ∧
        a.get .id = none ∧ (a.faults.field? "id").isSome = true ∧
        c.get .sourceId = some (-2147483648) ∧ c.faults.field? "source_id" = none ∧
        (c.get .bendPoints)[1]? = some Coordinate.origin ∧
        ∃ fault, (c.faults.subtree "bend_points").child? (.index 1) = some (.leaf fault) := by
  have hwf : (Document.mapping edgeFlow).WellFormed := by
    simp [edgeFlow, Document.WellFormed, Document.WellFormedEntries, Document.WellFormedItems,
      Assoc.keys]
  have ha : StandsAt .workflow edgeFlow [.field "nodes", .key "a"] .node
      [("id", .integer 2147483648)] :=
    .member (t := .workflow) (f := .nodes) rfl rfl List.mem_cons_self rfl .root
  have hc : StandsAt .workflow edgeFlow [.field "connections", .index 0] .connection
      [("source_id", .integer (-2147483648)),
        ("bend_points", .sequence [.sequence [.integer 1, .integer 2], .integer 3])] :=
    .member (t := .workflow) (f := .connections) rfl rfl List.mem_cons_self rfl .root
  obtain ⟨l, hl, hread⟩ := load_reads_scalars "w" hwf
  obtain ⟨a, hnode, hfaithful⟩ := hread _ _ _ ha
  obtain ⟨c, hconnection, hends⟩ := hread _ _ _ hc
  have hid : a.get .id = none := by
    refine Option.eq_none_iff_forall_ne_some.mpr fun v hv => ?_
    obtain ⟨d, hd, n, hn, hvalue⟩ := ((hfaithful .id).value_iff v).mp hv
    cases hd
    cases hn
    have hle := v.toInt_le
    rw [← hvalue] at hle
    exact absurd hle (by decide)
  have hsource : c.get .sourceId = some (-2147483648) :=
    ((hends .sourceId).value_iff _).mpr ⟨_, rfl, _, rfl, by decide⟩
  have hpoint : (c.get .bendPoints)[1]? = some Coordinate.origin ∧
      ∃ fault, (c.faults.subtree "bend_points").child? (.index 1) = some (.leaf fault) := by
    have hlength := (hends .bendPoints).length_eq _ rfl
    obtain ⟨v, hv⟩ : ∃ v, (c.get .bendPoints)[1]? = some v :=
      ⟨_, List.getElem?_eq_getElem (by rw [hlength]; decide)⟩
    rcases (hends .bendPoints).value _ rfl 1 _ _ rfl hv with ⟨hdenotes, -⟩ | ⟨-, rfl, hfault⟩
    · obtain ⟨x, y, -, -, heq | ⟨es, heq, -⟩⟩ := hdenotes <;> cases heq
    · exact ⟨hv, hfault⟩
  refine ⟨hwf, l, hl, a, c, hnode, hconnection, hid,
    (hfaithful .id).faulty_iff.mpr ⟨hid, Or.inl rfl⟩, hsource, ?_, hpoint⟩
  refine Option.eq_none_iff_forall_ne_some.mpr fun u hu => ?_
  have hnone := ((hends .sourceId).faulty_iff.mp (Option.isSome_iff_exists.mpr ⟨u, hu⟩)).1
  rw [hsource] at hnone
  cases hnone

end Flowsheet
