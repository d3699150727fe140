import Flowsheet.Load
import Flowsheet.Proofs.Build.Run
import Flowsheet.Proofs.Document

/-!
# What tolerant reading comes to

A tolerant reader never ends a build, so what it comes to can be written down without the run that
finds it. `Shape.loaded` is the slot that reading one entry leaves, `Builder.loaded` the builder
that reading a mapping leaves, and `Layout.loadedRecord` the record that is finished from it;
`readEntries_tolerant` says that this is what tolerant reading of an entity gives, and
`Workflow.read_tolerant` says so for workflows.

Configurations are read up to a depth. More depth than a document has makes no difference
(`readTo_congr`), so `Config.read` satisfies the equation of a reader that knows no depth
(`Config.read_eq`).
-/

namespace Flowsheet

/-! ### Passes over items -/

section

variable {σ ι ε : Type} {step : σ → ι → Except ε σ} (effect : σ → ι → σ)

/-- A pass in which no item fails. -/
theorem foldlM_eq_ok {items : List ι} (h : ∀ x ∈ items, ∀ s, step s x = .ok (effect s x)) (s : σ) :
    items.foldlM step s = .ok (items.foldl effect s) := by
  induction items generalizing s with
  | nil => rfl
  | cons x rest ih =>
      rw [List.foldlM_cons, h x List.mem_cons_self]
      exact ih (fun y hy => h y (List.mem_cons_of_mem _ hy)) _

/-- A pass ends at the first item that fails. -/
theorem foldlM_eq_error {pre post : List ι} {x : ι} {e : ε}
    (hpre : ∀ y ∈ pre, ∀ s, step s y = .ok (effect s y)) (hx : ∀ s, step s x = .error e) (s : σ) :
    (pre ++ x :: post).foldlM step s = .error e := by
  rw [List.foldlM_append, foldlM_eq_ok effect hpre]
  show ((x :: post).foldlM step _) = _
  rw [List.foldlM_cons, hx]
  rfl

/-- Only what a pass does with its own items counts. -/
theorem foldlM_congr_of_mem {step' : σ → ι → Except ε σ} {items : List ι}
    (h : ∀ x ∈ items, ∀ s, step s x = step' s x) (s : σ) :
    items.foldlM step s = items.foldlM step' s := by
  induction items generalizing s with
  | nil => rfl
  | cons x rest ih =>
      rw [List.foldlM_cons, List.foldlM_cons, h x List.mem_cons_self]
      congr 1
      funext next
      exact ih (fun y hy => h y (List.mem_cons_of_mem _ hy)) next

end

/-! ### Readers of parts -/

section

variable {α : Type}

/-- What tolerant reading comes to. -/
def tolerantly (read : BuildMode → Document → Reading α) (d : Document) : Except FieldError α :=
  match read .tolerant d with
  | .ok r => r
  | .error _ => .error default

/-- A reader whose tolerant runs never end the build. -/
def Tolerates (read : BuildMode → Document → Reading α) : Prop :=
  ∀ d, read .tolerant d = .ok (tolerantly read d)

namespace ItemReader

/-- The element that an item becomes, and the fault if it is the fallback. -/
def element (reader : ItemReader α) (d : Document) : α × Option Fault :=
  match tolerantly reader.read d with
  | .ok a => (a, none)
  | .error e => (reader.fallback, some ⟨.field e⟩)

/-- The part that an item becomes; the fallback carries the fault itself. -/
def part [HasFaults α] (reader : ItemReader α) (d : Document) : α :=
  match tolerantly reader.read d with
  | .ok a => a
  | .error e => HasFaults.mark ⟨.field e⟩ reader.fallback

end ItemReader

end

/-! ### One field -/

namespace Shape

/-- The readers that a field is read with never end a tolerant build. -/
def Tolerates : (s : Shape) → s.Reader → Prop
  | required _, _ | optional _, _ => True
  | @requiredPart _ _, reader | @optionalPart _ _, reader => Flowsheet.Tolerates reader
  | list _, reader | @parts _ _, reader | @namedParts _ _, reader => Flowsheet.Tolerates reader.read

/-- What tolerant reading of an entry leaves in a field. -/
def loaded : (s : Shape) → s.Reader → Document → s.Slot
  | required _, reader, d | optional _, reader, d =>
    match reader d with
    | .ok v => .assigned (some v)
    | .error e => .fallenBack none ⟨.field e⟩
  | @requiredPart _ _, reader, d | @optionalPart _ _, reader, d =>
    match tolerantly reader d with
    | .ok a => .assignedPart (some a)
    | .error e => .fallenBackPart none ⟨.field e⟩
  | list _, reader, d =>
    match d.asItems with
    | .ok items => ⟨[], .empty, items.map reader.element⟩
    | .error e => ⟨[], FaultTree.empty.inject ⟨.field e⟩, []⟩
  | @parts _ _, reader, d =>
    match d.asItems with
    | .ok items => ⟨[], .empty, items.map fun item => (reader.part item, none)⟩
    | .error e => ⟨[], FaultTree.empty.inject ⟨.field e⟩, []⟩
  | @namedParts _ _, reader, d =>
    match d.asEntries with
    | .ok entries =>
      ⟨[], .empty, Assoc.ofList (entries.map fun e => (e.1, reader.part e.2)), []⟩
    | .error e => ⟨[], FaultTree.empty.inject ⟨.field e⟩, [], []⟩

/-- Whatever the entry, the field is not missing any more. -/
theorem isMissing_loaded (s : Shape) (reader : s.Reader) (d : Document) :
    s.isMissing (s.loaded reader d) = false := by
  cases s with
  | required _ => simp only [isMissing, loaded]; split <;> rfl
  | requiredPart _ => simp only [isMissing, loaded]; split <;> rfl
  | optional _ | optionalPart _ | list _ | parts _ | namedParts _ => rfl

/-- Putting elements one by one into an empty list. -/
theorem foldl_push {α ι : Type} (f : ι → α × Option Fault) (items : List ι) :
    items.foldl (fun slot x => { slot with added := slot.added ++ [f x] }) ListSlot.unset =
      ⟨[], .empty, items.map f⟩ := by
  have hfold : ∀ slot : ListSlot α,
      items.foldl (fun slot x => { slot with added := slot.added ++ [f x] }) slot =
        { slot with added := slot.added ++ items.map f } := by
    induction items with
    | nil => simp
    | cons x rest ih =>
        intro slot
        rw [List.foldl_cons, ih, List.map_cons, List.append_assoc]
        rfl
  exact hfold .unset

/-- Putting entries one by one into an empty map. -/
theorem foldl_insert {α ι : Type} (f : ι → α) (entries : List (String × ι)) :
    entries.foldl (fun slot x => slot.insert x.1 (f x.2)) MapSlot.unset =
      ⟨[], .empty, Assoc.ofList (entries.map fun x => (x.1, f x.2)), []⟩ := by
  -- every insertion clears the key's own fault, of which there is none here
  have hfold : ∀ slot : MapSlot α, slot.putFaults = [] →
      entries.foldl (fun slot x => slot.insert x.1 (f x.2)) slot =
        { slot with put := Assoc.extend slot.put (entries.map fun x => (x.1, f x.2)) } := by
    induction entries with
    | nil => exact fun slot _ => rfl
    | cons x rest ih =>
        intro slot h
        have herase : (slot.insert x.1 (f x.2)).putFaults = [] := by
          rw [MapSlot.insert, h]
          rfl
        rw [List.foldl_cons, ih _ herase]
        simp [MapSlot.insert, h, Assoc.erase, Assoc.extend]
  exact hfold .unset rfl

/-- What tolerant reading of an entry does to a field without a call. -/
theorem read_tolerant (entity : String) (key : FaultKey) (s : Shape) {reader : s.Reader}
    (h : s.Tolerates reader) (d : Document) :
    read ⟨entity, .tolerant⟩ key s reader d s.unset = .ok (s.loaded reader d) := by
  cases s with
  | required α | optional α =>
      simp only [read, loaded]
      cases reader d <;> rfl
  | requiredPart α | optionalPart α =>
      simp only [read, loaded]
      rw [h d]
      cases tolerantly reader d <;> rfl
  | list α =>
      simp only [read, loaded]
      cases d.asItems with
      | error e => rfl
      | ok items =>
          refine (foldlM_eq_ok (fun slot x =>
            { slot with added := slot.added ++ [reader.element x] })
            (fun x _ slot => ?_) _).trans ?_
          · rw [h x, ItemReader.element]
            cases tolerantly reader.read x <;> rfl
          · exact congrArg Except.ok (foldl_push reader.element items)
  | parts α =>
      simp only [read, loaded]
      cases d.asItems with
      | error e => rfl
      | ok items =>
          refine (foldlM_eq_ok (fun slot x =>
            { slot with added := slot.added ++ [(reader.part x, none)] })
            (fun x _ slot => ?_) _).trans ?_
          · rw [h x, ItemReader.part]
            cases tolerantly reader.read x <;> rfl
          · exact congrArg Except.ok (foldl_push (fun x => (reader.part x, none)) items)
  | namedParts α =>
      simp only [read, loaded]
      cases d.asEntries with
      | error e => rfl
      | ok entries =>
          refine (foldlM_eq_ok (fun slot x => slot.insert x.1 (reader.part x.2))
            (fun x _ slot => ?_) _).trans ?_
          · rw [h x.2, ItemReader.part]
            cases tolerantly reader.read x.2 <;> rfl
          · exact congrArg Except.ok (foldl_insert reader.part entries)

end Shape

/-! ### One entity -/

namespace Layout

variable {L : Layout}

/-- The readers that the fields are read with never end a tolerant build. -/
def Readers.Tolerate (readers : L.Readers) : Prop := ∀ f, (L.shape f).Tolerates (readers f)

end Layout

namespace Builder

variable {L : Layout}

/-- What tolerant reading of a mapping leaves in a field. -/
def loadedSlot (readers : L.Readers) (entries : List (String × Document)) (f : L.Field) :
    (L.shape f).Slot :=
  match Document.present? (L.name f) entries with
  | none => (L.shape f).unset
  | some d => (L.shape f).loaded (readers f) d

/-- The builder that reading a mapping leaves where it ends nothing. -/
def loaded (mode : BuildMode) (readers : L.Readers) (entries : List (String × Document)) :
    Builder L :=
  ⟨mode, loadedSlot readers entries⟩

/-- Reading the fields is one pass that changes each field's own slot. -/
theorem readFields_eq (readers : L.Readers) (entries : List (String × Document)) (b : Builder L) :
    b.readFields readers entries = L.fields.foldlM (updateField fun scope f slot =>
      match Document.present? (L.name f) entries with
      | none => .ok slot
      | some d => (L.shape f).read scope (L.key f) (readers f) d slot) b := by
  have hstep : readField readers entries = updateField fun scope f slot =>
      match Document.present? (L.name f) entries with
      | none => .ok slot
      | some d => (L.shape f).read scope (L.key f) (readers f) d slot := by
    funext b f
    rw [readField, updateField]
    cases Document.present? (L.name f) entries with
    | none => exact congrArg Except.ok (setSlot_self b f).symm
    | some d => rfl
  unfold readFields
  rw [hstep]

/-- A field is missing after reading only if it has no entry. -/
theorem loadedSlot_of_isMissing {readers : L.Readers} {entries : List (String × Document)}
    {f : L.Field} (h : (L.shape f).isMissing (loadedSlot readers entries f) = true) :
    loadedSlot readers entries f = (L.shape f).unset := by
  unfold loadedSlot at h ⊢
  cases hd : Document.present? (L.name f) entries with
  | none => rfl
  | some d =>
      rw [hd] at h
      simp only [Shape.isMissing_loaded, Bool.false_eq_true] at h

/-- A tolerant builder reads all fields. -/
theorem readFields_tolerant {readers : L.Readers} (h : readers.Tolerate)
    (entries : List (String × Document)) :
    (new L .tolerant).readFields readers entries = .ok (loaded .tolerant readers entries) := by
  rw [readFields_eq, foldlM_updateField_fields (loadedSlot readers entries)]
  · rfl
  · intro f
    unfold loadedSlot
    cases Document.present? (L.name f) entries with
    | none => rfl
    | some d => exact Shape.read_tolerant _ _ _ (h f) d

end Builder

namespace Layout

variable {L : Layout}

/-- The record that is finished from what tolerant reading of a mapping leaves. -/
def loadedRecord (readers : L.Readers) (entries : List (String × Document)) : Record L :=
  (Builder.loaded .tolerant readers entries).settled.toRecord

end Layout

namespace Entity

variable {E : Type} [Entity E]

/-- An entity has the tree of its record. -/
theorem faults_ofRecord (r : Record (layout E)) : HasFaults.faults (ofRecord r : E) = r.faults :=
  congrArg Record.faults (toRecord_ofRecord r)

/-- Tolerant reading of a mapping always gives an entity. -/
theorem readEntries_tolerant {readers : (layout E).Readers} (h : readers.Tolerate)
    (entries : List (String × Document)) :
    readEntries readers .tolerant entries =
      .ok (ofRecord (Layout.loadedRecord readers entries) : E) := by
  unfold readEntries
  rw [Builder.readFields_tolerant h]
  show (Builder.build _).map ofRecord = _
  rw [Builder.build_tolerant rfl]
  rfl

/-- Tolerant reading of an entity from any document. -/
theorem read_tolerant {readers : (layout E).Readers} (h : readers.Tolerate) (d : Document) :
    (read readers .tolerant d : Reading E) =
      .ok (d.asEntries.map fun entries => ofRecord (Layout.loadedRecord readers entries)) := by
  unfold read
  cases d.asEntries with
  | error e => rfl
  | ok entries =>
      simp only []
      rw [readEntries_tolerant h]
      rfl

/-- Reading an entity never ends a tolerant build if reading its fields does not. -/
theorem read_tolerates {readers : (layout E).Readers} (h : readers.Tolerate) :
    Tolerates (read readers : BuildMode → Document → Reading E) := by
  intro d
  unfold tolerantly
  rw [read_tolerant h]

/-- A tolerant build reads every mapping as an entity, and refuses everything else. -/
theorem tolerantly_read {readers : (layout E).Readers} (h : readers.Tolerate) (d : Document) :
    tolerantly (read readers : BuildMode → Document → Reading E) d =
      d.asEntries.map fun entries => ofRecord (Layout.loadedRecord readers entries) := by
  unfold tolerantly
  rw [read_tolerant h]

end Entity

/-! ### Configurations -/

namespace Config

/-- What tolerant reading of a configuration's entries comes to, with its children read by
`child`. -/
def loadedEntries (child : BuildMode → Document → Reading Config)
    (entries : List (String × Document)) : Except FieldError Config :=
  if Assoc.contains (ConfigMap.layout.name .children) entries then
    .ok (Entity.ofRecord (E := ConfigMap)
      (Layout.loadedRecord (ConfigMap.readers child) entries)).toConfig
  else if Assoc.contains (ConfigValue.layout.name .value) entries then
    .ok (Entity.ofRecord (E := ConfigValue)
      (Layout.loadedRecord ConfigValue.readers entries)).toConfig
  else .error (.mismatch "config entry with 'children' or 'value'" "mapping")

/-- A tolerant build reads the entries of a configuration if it does so for the children. -/
theorem readEntries_tolerant {child : BuildMode → Document → Reading Config} (h : Tolerates child)
    (entries : List (String × Document)) :
    readEntries child .tolerant entries = .ok (loadedEntries child entries) := by
  have hmap : (ConfigMap.readers child).Tolerate := fun f => by cases f; exact h
  have hvalue : ConfigValue.readers.Tolerate := fun f => by cases f; trivial
  rw [readEntries, loadedEntries, Entity.readEntries_tolerant hmap,
    Entity.readEntries_tolerant hvalue]
  split
  · rfl
  · split <;> rfl

/-- Configurations of any depth never end a tolerant build, by induction on the depth. -/
theorem readTo_tolerates (depth : Nat) : Tolerates (readTo depth) := by
  induction depth with
  | zero => exact fun d => rfl
  | succ depth ih =>
      intro d
      unfold tolerantly
      rw [readTo]
      cases d.asEntries with
      | error e => rfl
      | ok entries =>
          simp only []
          rw [readEntries_tolerant ih]

/-- So configurations never do. -/
theorem read_tolerates : Tolerates read := fun d => readTo_tolerates d.depth d

/-- How children are read matters only for what is below the entries. -/
theorem readEntries_congr {child child' : BuildMode → Document → Reading Config}
    {entries : List (String × Document)}
    (h : ∀ mode d, d.depth < Document.depthEntries entries → child mode d = child' mode d)
    (mode : BuildMode) : readEntries child mode entries = readEntries child' mode entries := by
  have hfield : Builder.readField (ConfigMap.readers child) entries =
      Builder.readField (ConfigMap.readers child') entries := by
    funext b f
    cases f
    unfold Builder.readField
    cases hd : Document.present? (ConfigMap.layout.name .children) entries with
    | none => rfl
    | some d =>
        refine congrArg (Except.map (b.setSlot _)) ?_
        show Shape.read _ _ (.namedParts Config) ⟨child, Config.emptyMap⟩ d _ =
          Shape.read _ _ (.namedParts Config) ⟨child', Config.emptyMap⟩ d _
        simp only [Shape.read]
        cases hes : d.asEntries with
        | error e => rfl
        | ok es =>
            have hdepth : d.depth ≤ Document.depthEntries entries :=
              Document.depth_le_depthEntries (Document.mem_of_present? hd)
            rw [Document.eq_mapping_of_asEntries hes, Document.depth] at hdepth
            refine foldlM_congr_of_mem (fun e he slot => ?_) _
            rw [h _ _ (Nat.lt_of_le_of_lt (Document.depth_le_depthEntries he) hdepth)]
  have hmap : Entity.readEntries (E := ConfigMap) (ConfigMap.readers child) mode entries =
      Entity.readEntries (ConfigMap.readers child') mode entries := by
    simp only [Entity.readEntries, Builder.readFields]
    rw [hfield]
  unfold readEntries
  rw [hmap]

/-- What is no mapping is no configuration, at any depth and in either mode. -/
theorem readTo_of_error {d : Document} {e : FieldError} (h : d.asEntries = .error e) (depth : Nat)
    (mode : BuildMode) : readTo depth mode d = .ok (.error e) := by
  cases depth with
  | zero => rw [readTo, Document.asEntries_eq_error h]
  | succ depth => rw [readTo, h]

/-- More depth than a document has makes no difference. -/
theorem readTo_congr {n m : Nat} (mode : BuildMode) {d : Document} (hn : d.depth ≤ n)
    (hm : d.depth ≤ m) : readTo n mode d = readTo m mode d := by
  cases hes : d.asEntries with
  | error e => rw [readTo_of_error hes, readTo_of_error hes]
  | ok entries =>
      have hd := Document.eq_mapping_of_asEntries hes
      subst hd
      rw [Document.depth] at hn hm
      -- both bounds go down together, since either is above the depth of what is read next
      induction n generalizing m mode entries with
      | zero => cases hn
      | succ n ih =>
          obtain ⟨m, rfl⟩ : ∃ m', m = m' + 1 := ⟨m - 1, by omega⟩
          refine readEntries_congr (fun mode d hd => ?_) mode
          cases hsub : d.asEntries with
          | error e => rw [readTo_of_error hsub, readTo_of_error hsub]
          | ok es =>
              rw [Document.eq_mapping_of_asEntries hsub, Document.depth] at hd
              rw [Document.eq_mapping_of_asEntries hsub]
              exact ih mode es (by omega) (by omega) rfl

/-- Configurations are read without regard to depth. -/
theorem read_eq (mode : BuildMode) (d : Document) :
    read mode d =
      match d.asEntries with
      | .ok entries => readEntries read mode entries
      | .error e => .ok (.error e) := by
  cases hes : d.asEntries with
  | error e => exact readTo_of_error hes _ _
  | ok entries =>
      rw [Document.eq_mapping_of_asEntries hes, read]
      refine readEntries_congr (fun mode d hd => ?_) mode
      exact readTo_congr mode (Nat.le_of_lt hd) (Nat.le_refl _)

/-- A tolerant build reads a configuration from the entries of a mapping, its children as
configurations. -/
theorem tolerantly_read (d : Document) :
    tolerantly read d = d.asEntries.bind (loadedEntries read) := by
  unfold tolerantly
  rw [read_eq]
  cases d.asEntries with
  | error e => rfl
  | ok entries =>
      simp only []
      rw [readEntries_tolerant read_tolerates]
      rfl

end Config

/-! ### Workflows -/

/-- Bounds have plain fields. -/
theorem Bounds.readers_tolerate : Bounds.readers.Tolerate := fun f => by cases f <;> trivial

/-- Ports have plain fields. -/
theorem Port.readers_tolerate : Port.readers.Tolerate := fun f => by cases f <;> trivial

/-- Connections have plain fields and a list of plain values. -/
theorem Connection.readers_tolerate : Connection.readers.Tolerate := by
  intro f
  cases f with
  | sourceId | sourcePort | destId | destPort | deletable => trivial
  | bendPoints => exact fun _ => rfl

/-- Annotations have bounds besides plain fields. -/
theorem Annotation.readers_tolerate : Annotation.readers.Tolerate := by
  intro f
  cases f with
  | text | borderSize => trivial
  | bounds => exact Entity.read_tolerates Bounds.readers_tolerate

/-- Nodes have bounds, ports and settings. -/
theorem Node.readers_tolerate : Node.readers.Tolerate := by
  intro f
  cases f with
  | id | name | kind => trivial
  | bounds => exact Entity.read_tolerates Bounds.readers_tolerate
  | inPorts | outPorts => exact Entity.read_tolerates Port.readers_tolerate
  | modelSettings => exact Config.read_tolerates

/-- Workflows have nodes, connections and annotations. -/
theorem Workflow.readers_tolerate : Workflow.readers.Tolerate := by
  intro f
  cases f with
  | name => trivial
  | nodes => exact Entity.read_tolerates Node.readers_tolerate
  | connections => exact Entity.read_tolerates Connection.readers_tolerate
  | annotations => exact Entity.read_tolerates Annotation.readers_tolerate

/-- Tolerant reading of a mapping always gives a workflow. -/
theorem Workflow.read_tolerant (entries : List (String × Document)) :
    Workflow.read .tolerant entries =
      .ok (Entity.ofRecord (Layout.loadedRecord Workflow.readers entries)) :=
  Entity.readEntries_tolerant Workflow.readers_tolerate entries

namespace LoadOptions

/-- A mapping is loaded by reading it as a workflow and listing the faults. -/
theorem loadDocument_mapping (o : LoadOptions) (entries : List (String × Document)) :
    o.loadDocument (.mapping entries) =
      (Workflow.read o.mode entries).map fun w => ⟨w, w.faults.diagnostics o.source⟩ := rfl

/-- Tolerant loads of mappings always succeed. -/
theorem loadDocument_tolerant (source : String) (entries : List (String × Document)) :
    ∃ w, Workflow.read .tolerant entries = .ok w ∧
      loadDocument ⟨source, .tolerant⟩ (.mapping entries) =
        .ok ⟨w, w.faults.diagnostics source⟩ := by
  refine ⟨_, Workflow.read_tolerant entries, ?_⟩
  rw [loadDocument_mapping, Workflow.read_tolerant]
  rfl

/-- A workflow with one node, which lacks its number and its name, and whose settings hold a list
where a value has to stand. -/
def nestedFault : List (String × Document) :=
  [("nodes", .mapping [("n", .mapping
    [("kind", .string "COMPONENT"), ("model_settings", .mapping
      [("children", .mapping [("k", .mapping [("value", .sequence [])])])])])])]

/-- No mapping in this workflow has a key twice. -/
theorem wellFormed_nestedFault : (Document.mapping nestedFault).WellFormed := by
  simp [nestedFault, Document.WellFormed, Document.WellFormedEntries, Document.WellFormedItems,
    Assoc.keys]

end LoadOptions

/-- The way to the value in the settings of `LoadOptions.nestedFault`. -/
def nestedFaultPath : FaultPath :=
  [.field "nodes", .key "n", .field "model_settings", .field "children", .key "k", .field "value"]

end Flowsheet
