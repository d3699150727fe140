import Flowsheet.Proofs.Build.Complete
import Flowsheet.Proofs.Reading.Conform
import Flowsheet.Proofs.Reading.Origin
import Flowsheet.Proofs.Reading.Parts
import Flowsheet.Proofs.Writing

/-!
# Loading undoes writing

A workflow that can be made and has no faults is loaded from its own document as it is, in either
mode and without a diagnostic (`load_toDocument`).

Values are read back one type at a time (`EntityType.undoesPlain`). A field is read back if its
values and parts are (`Shape.ReadsBack`), and an entity if its fields are
(`Layout.loadedRecord_entries`). The parts of an entity that can be made and has no faults are such
entities themselves, so the rest is an induction on the depth of what is written
(`Reachable.isRestored`).

That such an entity has no gaps (`Reachable.complete`) is needed twice: what is not written must not
be required, and the value of a configuration has to be there for it to be known as one
(`EntityType.partType?_entries`).
-/

namespace Flowsheet

open EntityType FaultTree

/-! ### Single values -/

namespace Document

/-- The document can stand in a field, and the value is read from it. -/
structure ReadsAs {α : Type} (read : Document → Except FieldError α) (v : α) (d : Document) :
    Prop where
  /-- What is read. -/
  read_eq : read d = .ok v
  /-- No key is repeated. -/
  wellFormed : d.WellFormed
  /-- It does not count as absent. -/
  isNull_eq : d.isNull = false

/-- A signed number is read back. -/
theorem asInt32_ofInt32 (n : Int32) : (ofInt32 n).asInt32 = .ok n := by
  have hvalue : n.toInt64.toInt = n.toInt := Int32.toInt_toInt64 n
  have hrange : Int32.minValue.toInt ≤ n.toInt64.toInt ∧
      n.toInt64.toInt ≤ Int32.maxValue.toInt := by
    rw [hvalue]
    exact ⟨n.minValue_le_toInt, n.toInt_le⟩
  have hnarrow : narrowSigned n.toInt64 = some n := by
    rw [narrowSigned, if_pos hrange, hvalue, Int32.ofInt_toInt]
  rw [ofInt32, asInt32, asNumber, hnarrow]

/-- An unsigned number is read back. -/
theorem asUInt32_ofUInt32 (n : UInt32) : (ofUInt32 n).asUInt32 = .ok n := by
  have hlt : n.toNat < 4294967296 := n.toNat_lt
  have hvalue : (Int64.ofNat n.toNat).toInt = n.toNat := Int64.toInt_ofNat_of_lt (by omega)
  have hrange : 0 ≤ (Int64.ofNat n.toNat).toInt ∧
      (Int64.ofNat n.toNat).toInt < (UInt32.size : Int) := by
    rw [hvalue, UInt32.size]
    omega
  have hnarrow : narrowUnsigned (Int64.ofNat n.toNat) = some n := by
    rw [narrowUnsigned, if_pos hrange, hvalue, Int.toNat_natCast, UInt32.ofNat_toNat]
  rw [ofUInt32, asUInt32, asNumber, hnarrow]

/-- A port type is read back, since its text has passed the check. -/
theorem asPortType_ofPortType (p : PortType) : (ofPortType p).asPortType = .ok p :=
  (PortType.ofText_eq_ok_iff p.text p).mpr rfl

/-- A point is read back. -/
theorem asCoordinate_ofCoordinate (c : Coordinate) : (ofCoordinate c).asCoordinate = .ok c := by
  show pair (ofInt32 c.x) (ofInt32 c.y) = .ok c
  rw [pair, asInt32_ofInt32, asInt32_ofInt32]
  rfl

/-- A plain setting is read back as it was, with its shape. -/
theorem asScalar_ofScalar (v : Scalar) : (ofScalar v).asScalar = .ok v := by
  cases v <;> rfl

/-- So what a plain setting is written as can stand for it. -/
theorem readsAs_ofScalar (v : Scalar) : (ofScalar v).ReadsAs asScalar v := by
  refine ⟨asScalar_ofScalar v, ?_, ?_⟩
  · cases v <;> trivial
  · cases v <;> rfl

end Document

/-- The plain values of a field are read back, whatever they are. -/
def Shape.UndoesPlain : (s : Shape) → s.Reader → s.Writer → Prop
  | required _, reader, writer | optional _, reader, writer =>
    ∀ v, (writer v).ReadsAs reader v
  | list _, reader, writer => ∀ v, (writer v).ReadsAs (tolerantly reader.read) v
  | @requiredPart _ _, _, _ | @optionalPart _ _, _, _ | @parts _ _, _, _
  | @namedParts _ _, _, _ => True

/-- The plain values of all fields are read back. -/
theorem EntityType.undoesPlain (t : EntityType) (f : t.layout.Field) :
    (t.layout.shape f).UndoesPlain (t.readers f) (t.writers f) := by
  have hsigned : ∀ n, (Document.ofInt32 n).ReadsAs Document.asInt32 n :=
    fun n => ⟨Document.asInt32_ofInt32 n, trivial, rfl⟩
  have hunsigned : ∀ n, (Document.ofUInt32 n).ReadsAs Document.asUInt32 n :=
    fun n => ⟨Document.asUInt32_ofUInt32 n, trivial, rfl⟩
  have htext : ∀ text, (Document.string text).ReadsAs Document.asString text :=
    fun text => ⟨rfl, trivial, rfl⟩
  cases t with
  | workflow =>
      cases f with
      | name => exact htext
      | nodes | connections | annotations => trivial
  | node =>
      cases f with
      | id => exact hsigned
      | name => exact htext
      | kind => exact fun k => ⟨NodeKind.ofText_text k, trivial, rfl⟩
      | bounds | inPorts | outPorts | modelSettings => trivial
  | bounds => cases f <;> exact hsigned
  | port =>
      cases f with
      | index => exact hunsigned
      | portType => exact fun p => ⟨Document.asPortType_ofPortType p, trivial, rfl⟩
      | name => exact htext
  | connection =>
      cases f with
      | sourceId | destId => exact hsigned
      | sourcePort | destPort => exact hunsigned
      | deletable => exact fun b => ⟨rfl, trivial, rfl⟩
      | bendPoints =>
          exact fun c => ⟨Document.asCoordinate_ofCoordinate c,
            Document.wellFormed_sequence.mpr (by simp [Document.ofInt32, Document.WellFormed]), rfl⟩
  | annotation =>
      cases f with
      | text => exact htext
      | bounds => trivial
      | borderSize => exact hsigned
  | configMap =>
      cases f with
      | children => trivial
  | configValue =>
      cases f with
      | value => exact Document.readsAs_ofScalar

/-! ### One field -/

namespace ItemReader

variable {α : Type} {reader : ItemReader α} {d : Document} {a : α}

/-- A part that is read back becomes itself, without a mark. -/
theorem part_of_readsAs [HasFaults α] (h : d.ReadsAs (tolerantly reader.read) a) :
    reader.part d = a := by
  rw [part, h.read_eq]

/-- An element that is read back becomes itself. -/
theorem element_of_readsAs (h : d.ReadsAs (tolerantly reader.read) a) :
    (reader.element d).1 = a := by
  rw [element, h.read_eq]

end ItemReader

namespace Shape

/-- What stands in the field is read back from what it is written as; parts have no faults. -/
def ReadsBack : (s : Shape) → s.Reader → s.Writer → s.Content → Prop
  | required _, reader, writer, c | optional _, reader, writer, c =>
    ∀ v ∈ c, (writer v).ReadsAs reader v
  | @requiredPart _ _, reader, writer, c | @optionalPart _ _, reader, writer, c =>
    ∀ a ∈ c, (writer a).ReadsAs (tolerantly reader) a ∧ HasFaults.faults a = .empty
  | list _, reader, writer, c => ∀ v ∈ c, (writer v).ReadsAs (tolerantly reader.read) v
  | @parts _ _, reader, writer, c =>
    ∀ a ∈ c, (writer a).ReadsAs (tolerantly reader.read) a ∧ HasFaults.faults a = .empty
  | @namedParts _ _, reader, writer, c =>
    (Assoc.keys c).Nodup ∧ ∀ e ∈ c,
      (writer e.2).ReadsAs (tolerantly reader.read) e.2 ∧ HasFaults.faults e.2 = .empty

variable {s : Shape} {reader : s.Reader} {writer : s.Writer} {c : s.Content} {d : Document}

/-- A field that holds nothing has no entry. -/
theorem eq_blank_of_write (h : s.write writer c = none) : c = s.blank := by
  cases s with
  | required | optional | requiredPart | optionalPart => exact Option.map_eq_none_iff.mp h
  | list | parts | namedParts => cases h

/-- The entry of a field can stand there. -/
theorem ReadsBack.document (h : s.ReadsBack reader writer c) (hd : s.write writer c = some d) :
    d.WellFormed ∧ d.isNull = false := by
  cases s with
  | required | optional =>
      obtain ⟨v, hv, rfl⟩ := Option.map_eq_some_iff.mp hd
      exact ⟨(h v hv).wellFormed, (h v hv).isNull_eq⟩
  | requiredPart | optionalPart =>
      obtain ⟨a, ha, rfl⟩ := Option.map_eq_some_iff.mp hd
      exact ⟨(h a ha).1.wellFormed, (h a ha).1.isNull_eq⟩
  | list =>
      obtain rfl := Option.some.inj hd
      exact ⟨Document.wellFormed_sequence.mpr
        (List.forall_mem_map.mpr fun v hv => (h v hv).wellFormed), rfl⟩
  | parts =>
      obtain rfl := Option.some.inj hd
      exact ⟨Document.wellFormed_sequence.mpr
        (List.forall_mem_map.mpr fun a ha => (h a ha).1.wellFormed), rfl⟩
  | namedParts =>
      obtain rfl := Option.some.inj hd
      refine ⟨Document.wellFormed_mapping.mpr ⟨?_, ?_⟩, rfl⟩
      · simpa [Assoc.keys, Function.comp_def] using h.1
      · exact List.forall_mem_map.mpr fun e he => (h.2 e he).1.wellFormed

/-- From the entry of a field its content is read. -/
theorem ReadsBack.content_loaded (h : s.ReadsBack reader writer c)
    (hd : s.write writer c = some d) : s.content (s.loaded reader d) = c := by
  cases s with
  | required | optional =>
      obtain ⟨v, hv, rfl⟩ := Option.map_eq_some_iff.mp hd
      rw [loaded, (h v hv).read_eq, hv]
      rfl
  | requiredPart | optionalPart =>
      obtain ⟨a, ha, rfl⟩ := Option.map_eq_some_iff.mp hd
      rw [loaded, (h a ha).1.read_eq, ha]
      rfl
  | list =>
      obtain rfl := Option.some.inj hd
      have hsame : ∀ v ∈ c, (reader.element (writer v)).1 = id v :=
        fun v hv => ItemReader.element_of_readsAs (h v hv)
      rw [content_loaded_list, List.map_map]
      exact (List.map_congr_left hsame).trans (List.map_id c)
  | parts =>
      obtain rfl := Option.some.inj hd
      have hsame : ∀ a ∈ c, reader.part (writer a) = id a :=
        fun a ha => ItemReader.part_of_readsAs (h a ha).1
      rw [content_loaded_parts, List.map_map]
      exact (List.map_congr_left hsame).trans (List.map_id c)
  | namedParts =>
      obtain rfl := Option.some.inj hd
      have hsame : ∀ e ∈ c, (e.1, reader.part (writer e.2)) = id e :=
        fun e he => Prod.ext rfl (ItemReader.part_of_readsAs (h.2 e he).1)
      have hkeys := (Document.wellFormed_mapping.mp (h.document rfl).1).1
      rw [content_loaded_namedParts reader hkeys, List.map_map]
      exact (List.map_congr_left hsame).trans (List.map_id c)

/-- It is read without a fault. -/
theorem ReadsBack.faults_loaded (h : s.ReadsBack reader writer c)
    (hd : s.write writer c = some d) : s.faults (s.loaded reader d) = .empty := by
  refine (faults_loaded_eq_empty_iff s reader (h.document hd).1).mpr ?_
  cases s with
  | required | optional =>
      obtain ⟨v, hv, rfl⟩ := Option.map_eq_some_iff.mp hd
      exact ⟨v, (h v hv).read_eq⟩
  | requiredPart | optionalPart =>
      obtain ⟨a, ha, rfl⟩ := Option.map_eq_some_iff.mp hd
      exact ⟨a, (h a ha).1.read_eq, (h a ha).2⟩
  | list =>
      obtain rfl := Option.some.inj hd
      exact List.forall_mem_map.mpr fun v hv => ⟨v, (h v hv).read_eq⟩
  | parts =>
      obtain rfl := Option.some.inj hd
      exact List.forall_mem_map.mpr fun a ha => ⟨a, (h a ha).1.read_eq, (h a ha).2⟩
  | namedParts =>
      obtain rfl := Option.some.inj hd
      exact List.forall_mem_map.mpr fun e he => ⟨e.2, (h.2 e he).1.read_eq, (h.2 e he).2⟩

end Shape

/-! ### One record -/

/-- A field about which nothing is known lacks a value just if it is required. -/
theorem Shape.isVacant_blank (s : Shape) : s.isVacant s.blank = s.isRequired := by
  cases s <;> rfl

/-- What is loaded into a field of an entity from what its fields are written as. -/
theorem Builder.loaded_entries {t : EntityType} {readers : t.layout.Readers}
    {writers : t.layout.Writers} {r : Record t.layout} {f : t.layout.Field}
    (hback : (t.layout.shape f).ReadsBack (readers f) (writers f) (r.get f))
    (hvacant : (t.layout.shape f).isVacant (r.get f) = false) :
    (t.layout.shape f).content ((t.layout.shape f).settled (t.layout.key f)
        (loadedSlot readers (r.entries writers) f)) = r.get f ∧
      (t.layout.shape f).faults ((t.layout.shape f).settled (t.layout.key f)
        (loadedSlot readers (r.entries writers) f)) = .empty := by
  cases hentry : (t.layout.shape f).write (writers f) (r.get f) with
  | none =>
      -- what has no entry is missing, which is no fault as the field is not required
      have hblank := Shape.eq_blank_of_write hentry
      rw [hblank, Shape.isVacant_blank] at hvacant
      have hpresent : Document.present? (t.layout.name f) (r.entries writers) = none := by
        rw [Document.present?, Record.get?_entries, hentry]
        rfl
      have hunset : loadedSlot readers (r.entries writers) f = (t.layout.shape f).unset := by
        rw [loadedSlot, hpresent]
      rw [hunset, hblank]
      refine ⟨Shape.content_settled_unset _ _, ?_⟩
      rw [Shape.faults_settled_unset, hvacant]
      rfl
  | some d =>
      have hget : Assoc.get? (t.layout.name f) (r.entries writers) = some d :=
        (Record.get?_entries f).trans hentry
      rw [settled_loadedSlot hget (hback.document hentry).2]
      exact ⟨hback.content_loaded hentry, hback.faults_loaded hentry⟩

/-- An entity whose fields are all read back, and that holds whatever it has to, is read back. -/
theorem Layout.loadedRecord_entries {t : EntityType} {readers : t.layout.Readers}
    {writers : t.layout.Writers} {r : Record t.layout}
    (hback : ∀ f, (t.layout.shape f).ReadsBack (readers f) (writers f) (r.get f))
    (hcomplete : AnyEntity.IsComplete ⟨t, r⟩) (hfaults : r.faults = .empty) :
    loadedRecord readers (r.entries writers) = r := by
  have hslot := fun f => Builder.loaded_entries (hback f) (hcomplete f)
  have hget : (loadedRecord readers (r.entries writers)).get = r.get :=
    funext fun f => (hslot f).1
  have hempty : (loadedRecord readers (r.entries writers)).faults = .empty :=
    (faults_loadedRecord_eq_empty readers _).mpr fun f => (hslot f).2
  calc loadedRecord readers (r.entries writers)
      = ⟨(loadedRecord readers (r.entries writers)).get,
          (loadedRecord readers (r.entries writers)).faults⟩ := rfl
    _ = r := by rw [hget, hempty, ← hfaults]

/-- The document of an entity is well-formed if those of its parts are. -/
theorem Record.wellFormed_entries {L : Layout} {readers : L.Readers} {writers : L.Writers}
    {r : Record L} (hback : ∀ f, (L.shape f).ReadsBack (readers f) (writers f) (r.get f)) :
    (Document.mapping (r.entries writers)).WellFormed := by
  refine Document.wellFormed_mapping.mpr ⟨nodup_keys_entries, fun e he => ?_⟩
  obtain ⟨f, -, hd⟩ := mem_entries.mp he
  exact ((hback f).document hd).1

/-! ### Parts -/

namespace EntityType

/-- What a map of configurations is written as has an entry for children. -/
theorem accepts_entries_configMap (r : Record ConfigMap.layout) :
    accepts .configMap (r.entries EntityType.configMap.writers) = true := by
  have hget : Assoc.get? (ConfigMap.layout.name .children)
      (r.entries EntityType.configMap.writers) = some _ :=
    Record.get?_entries (L := ConfigMap.layout) .children
  exact congrArg Option.isSome hget

/-- What a value of a configuration is written as has none, but one for the value. -/
theorem accepts_entries_configValue {r : Record ConfigValue.layout}
    (hcomplete : AnyEntity.IsComplete ⟨.configValue, r⟩) :
    accepts .configMap (r.entries EntityType.configValue.writers) = false ∧
      accepts .configValue (r.entries EntityType.configValue.writers) = true := by
  constructor
  · refine congrArg Option.isSome (Assoc.get?_eq_none_iff.mpr fun hmem => ?_)
    obtain ⟨e, he, hname⟩ := List.mem_map.mp hmem
    obtain ⟨f, hf, -⟩ := Record.mem_entries.mp he
    cases f
    exact absurd (hf.trans hname) (by decide)
  · have hget : Assoc.get? (ConfigValue.layout.name .value)
        (r.entries EntityType.configValue.writers) = (r.get .value).map Document.ofScalar :=
      Record.get?_entries (L := ConfigValue.layout) .value
    have hvalue : (r.get .value).isNone = false := hcomplete .value
    refine (congrArg Option.isSome hget).trans ?_
    rw [Option.isSome_map]
    exact Option.isNone_eq_false_iff.mp hvalue

/-- The type of an entity without gaps is known from what it is written as. -/
theorem partType?_entries {t : EntityType} {f : t.layout.Field} {x : AnyEntity}
    (htype : x.1 ∈ t.parts f) (hcomplete : x.IsComplete) :
    t.partType? f x.entries = some x.1 := by
  obtain ⟨u, r⟩ := x
  unfold partType?
  rcases t.parts_cases f with hparts | ⟨v, hparts, haccepts⟩ | hparts
  · rw [hparts] at htype
    cases htype
  · rw [hparts] at htype ⊢
    obtain rfl : u = v := List.mem_singleton.mp htype
    exact List.find?_cons_of_pos (haccepts _)
  · rw [hparts] at htype ⊢
    rcases (List.mem_cons.mp htype).imp_right List.mem_singleton.mp with rfl | rfl
    · exact List.find?_cons_of_pos (accepts_entries_configMap r)
    · obtain ⟨hmap, hvalue⟩ := accepts_entries_configValue hcomplete
      refine (List.find?_cons_of_neg (Bool.not_eq_true _ ▸ hmap)).trans ?_
      exact List.find?_cons_of_pos hvalue

end EntityType

/-- The entity is what is loaded from its entries. -/
structure AnyEntity.IsRestored (x : AnyEntity) : Prop where
  /-- What is loaded. -/
  loaded_eq : Layout.loadedRecord x.1.readers x.entries = x.2
  /-- No key is repeated in what is written. -/
  wellFormed : (Document.mapping x.entries).WellFormed

/-- A part is read back if the entity that it counts as is loaded from its entries. -/
theorem IsPartReader.readsBack {α : Type} [HasFaults α] {types : List EntityType}
    {view : α → AnyEntity} {read : BuildMode → Document → Reading α} {write : α → Document}
    {type? : List (String × Document) → Option EntityType} (hread : IsPartReader view read type?)
    (hwrite : IsPartWriter view write) (hview : IsView types view) {a : α}
    (h : type? (view a).entries = some (view a).1 ∧ (view a).IsRestored ∧
      (view a).faults = .empty) :
    (write a).ReadsAs (tolerantly read) a ∧ HasFaults.faults a = .empty := by
  obtain ⟨htype, hrestored, hfaults⟩ := h
  obtain ⟨b, hb, hb'⟩ := hread.read_mapping _ _ htype
  rw [hrestored.loaded_eq] at hb'
  obtain rfl : b = a := hwrite.view_injective b a hb'
  refine ⟨?_, (hview.faults_view b).symm.trans hfaults⟩
  rw [hwrite.write_eq]
  exact ⟨hb, hrestored.wellFormed, rfl⟩

namespace Shape

variable {s : Shape} {view : s.PartView} {writer : s.Writer} {c : s.Content}

/-- A field is read back if all entities in it are. -/
theorem ReadsParts.readsBack {reader : s.Reader} {types : List EntityType}
    {type? : List (String × Document) → Option EntityType} {t : FaultTree}
    (hread : s.ReadsParts view reader type?) (hwrite : s.WritesParts view writer)
    (hview : PartView.Lawful types s view) (hplain : s.UndoesPlain reader writer)
    (hcoherent : s.Coherent c t) (hmembers : ∀ x ∈ s.members view c,
      type? x.entries = some x.1 ∧ x.IsRestored ∧ x.faults = .empty) :
    s.ReadsBack reader writer c := by
  cases s with
  | required | optional | list => exact fun v _ => hplain v
  | requiredPart | optionalPart =>
      intro a ha
      have hmem := List.mem_map_of_mem (f := view) (Option.mem_toList.mpr ha)
      exact hread.readsBack hwrite hview (hmembers _ hmem)
  | parts =>
      intro a ha
      have hmem := List.mem_map_of_mem (f := view) ha
      exact hread.readsBack hwrite hview (hmembers _ hmem)
  | namedParts =>
      refine ⟨hcoherent.1, fun e he => ?_⟩
      have hmem := List.mem_map_of_mem (f := fun e => view e.2) he
      exact hread.readsBack hwrite hview (hmembers _ hmem)

/-- The parts in a field are of the types that the schema gives for it. -/
theorem type_mem_of_mem_members {types : List EntityType} (hview : PartView.Lawful types s view)
    {x : AnyEntity} (hx : x ∈ s.members view c) : x.1 ∈ types := by
  cases s with
  | required | optional | list => cases hx
  | requiredPart | optionalPart | parts =>
      obtain ⟨a, -, rfl⟩ := List.mem_map.mp hx
      exact hview.type_mem a
  | namedParts =>
      obtain ⟨e, -, rfl⟩ := List.mem_map.mp hx
      exact hview.type_mem e.2

/-- An entity in a field is less deep than the entry of the field. -/
theorem WritesParts.depth_lt (h : s.WritesParts view writer) {x : AnyEntity}
    (hx : x ∈ s.members view c) :
    ∃ d, s.write writer c = some d ∧ Document.depthEntries x.entries < d.depth := by
  have hpart : ∀ {α : Type} {view : α → AnyEntity} {writer : α → Document},
      IsPartWriter view writer →
        ∀ a, Document.depthEntries (view a).entries < (writer a).depth := by
    intro α view writer h a
    rw [h.write_eq]
    exact Nat.lt_succ_self _
  cases s with
  | required | optional | list => cases hx
  | requiredPart | optionalPart =>
      obtain ⟨a, ha, rfl⟩ := List.mem_map.mp hx
      have hsome : c = some a := Option.mem_toList.mp ha
      exact ⟨writer a, by rw [hsome]; rfl, hpart h a⟩
  | parts =>
      obtain ⟨a, ha, rfl⟩ := List.mem_map.mp hx
      have hle := Document.depth_le_depthItems (List.mem_map_of_mem (f := writer) ha)
      exact ⟨_, rfl, Nat.lt_succ_of_lt (Nat.lt_of_lt_of_le (hpart h a) hle)⟩
  | namedParts =>
      obtain ⟨e, he, rfl⟩ := List.mem_map.mp hx
      have hle := Document.depth_le_depthEntries
        (List.mem_map_of_mem (f := fun e => (e.1, writer e.2)) he)
      exact ⟨_, rfl, Nat.lt_succ_of_lt (Nat.lt_of_lt_of_le (hpart h e.2) hle)⟩

end Shape

/-! ### Entities -/

/-- The document of a part is less deep than that of the entity. -/
theorem AnyEntity.depth_lt_of_mem_members {x y : AnyEntity} {f : x.1.layout.Field}
    (hy : y ∈ x.members f) : Document.depthEntries y.entries < Document.depthEntries x.entries := by
  obtain ⟨d, hd, hlt⟩ := (x.1.writesParts f).depth_lt hy
  have hmem : (x.1.layout.name f, d) ∈ x.entries := Record.mem_entries.mpr ⟨f, rfl, hd⟩
  exact Nat.lt_of_lt_of_le hlt (Document.depth_le_depthEntries hmem)

/-- An entity that can be made and has no faults is what is loaded from its entries. -/
theorem Reachable.isRestored {x : AnyEntity} (h : Reachable x)
    (hfaults : x.faults.hasFaults = false) : x.IsRestored := by
  induction hdepth : Document.depthEntries x.entries using Nat.strongRecOn generalizing x with
  | ind n ih =>
      obtain ⟨hcoherent, hmembers⟩ := h.invariant
      obtain ⟨hcomplete, hbelow⟩ := h.complete hfaults
      have hback : ∀ f, (x.1.layout.shape f).ReadsBack (x.1.readers f) (x.1.writers f)
          (x.2.get f) := by
        intro f
        refine (x.1.readsParts f).readsBack (x.1.writesParts f) (x.1.partView_lawful f)
          (x.1.undoesPlain f) (hcoherent f) fun y hy => ?_
        have htype := Shape.type_mem_of_mem_members (x.1.partView_lawful f) hy
        have hclean := h.hasFaults_eq_false_of_below hfaults (.direct hy)
        have hlt := AnyEntity.depth_lt_of_mem_members hy
        rw [hdepth] at hlt
        exact ⟨partType?_entries htype (hbelow y (.direct hy)),
          ih _ hlt (hmembers f y hy) hclean rfl, hasFaults_eq_false_iff.mp hclean⟩
      exact ⟨Layout.loadedRecord_entries hback hcomplete (hasFaults_eq_false_iff.mp hfaults),
        Record.wellFormed_entries hback⟩

/-- A workflow that can be made and has no faults is loaded from its document as it is, in either
mode and without a diagnostic. -/
theorem load_toDocument {w : Workflow} (h : Reachable ⟨.workflow, Entity.toRecord w⟩)
    (hfaults : w.faults.hasFaults = false) (o : LoadOptions) :
    o.loadDocument w.toDocument = .ok ⟨w, []⟩ := by
  obtain ⟨source, mode⟩ := o
  have hempty : w.faults = .empty := hasFaults_eq_false_iff.mp hfaults
  have hrestored := h.isRestored hfaults
  have hread : Workflow.read .tolerant (AnyEntity.entries ⟨.workflow, Entity.toRecord w⟩) =
      .ok w := by
    rw [Workflow.read_tolerant]
    refine congrArg Except.ok ?_
    refine (congrArg Entity.ofRecord hrestored.loaded_eq).trans ?_
    exact Entity.ofRecord_toRecord w
  have htolerant : LoadOptions.loadDocument ⟨source, .tolerant⟩ w.toDocument = .ok ⟨w, []⟩ := by
    rw [Workflow.toDocument_eq, LoadOptions.loadDocument_mapping, hread]
    show Except.ok (⟨w, w.faults.diagnostics source⟩ : Loaded) = _
    rw [hempty]
    rfl
  cases mode with
  | tolerant => exact htolerant
  | strict =>
      rcases LoadOptions.loadDocument_follows source hrestored.wellFormed htolerant with
        ⟨-, hrun⟩ | ⟨e, -, path, fault, field, hfirst, -⟩
      · exact hrun
      · rw [show w.faults.first? = none by rw [hempty]; rfl] at hfirst
        cases hfirst

/-- A workflow with a port, nested settings and bend points in both forms is loaded, written, and
loaded again. -/
theorem load_toDocument_tidyFlow :
    ∃ l, LoadOptions.loadDocument ⟨"flow", .tolerant⟩ LoadOptions.tidyFlow = .ok l ∧
      Reachable ⟨.workflow, Entity.toRecord l.workflow⟩ ∧
      l.workflow.faults.hasFaults = false ∧ Assoc.keys l.workflow.nodes = ["n"] ∧
      l.workflow.connections.length = 1 ∧
      ∀ o : LoadOptions, o.loadDocument l.workflow.toDocument = .ok ⟨l.workflow, []⟩ := by
  obtain ⟨w, hw, hload⟩ : ∃ w, _ ∧ LoadOptions.loadDocument ⟨"flow", .tolerant⟩
      LoadOptions.tidyFlow = .ok ⟨w, w.faults.diagnostics "flow"⟩ :=
    LoadOptions.loadDocument_tolerant "flow" _
  have hreachable := LoadOptions.reachable_of_loadDocument hload
  rw [Workflow.read_tolerant] at hw
  cases hw
  have hempty := (Workflow.faults_eq_empty_iff LoadOptions.wellFormed_tidyFlow).mpr
    LoadOptions.isWorkflow_tidyFlow
  have hfaults := hasFaults_eq_false_iff.mpr hempty
  exact ⟨_, hload, hreachable, hfaults, rfl, rfl, fun o => load_toDocument hreachable hfaults o⟩

end Flowsheet
