import Flowsheet.Proofs.Reading.Parts
import Mathlib.Data.List.Forall2

/-!
# Lists and maps in loaded workflows

A tolerant load loses and invents nothing in the lists and maps of a document, however deep they
are: each has as many members as its section in the document, under the same keys and in the same
order, and each member is what its own item is read as. An item that cannot be read leaves a
stand-in in its place, marked with the error (`load_keeps_items`).

`Shape.Keeps` says so of one field, by the three things its entry can be: absent or null, of another
shape, or a section of the right shape. What is read from the mapping of an entity keeps all its
sections (`Layout.keeps_loadedRecord`), and `StandsAt.entityAt?_eq` finds the mappings.
-/

namespace Flowsheet

open EntityType Spot

/-! ### Stand-ins -/

/-- What stands in for a member of a list or map that cannot be read. -/
def EntityType.standIn : (t : EntityType) → (f : t.layout.Field) → (t.layout.shape f).Item
  | workflow, .nodes => Entity.placeholder Node
  | workflow, .connections => Entity.placeholder Connection
  | workflow, .annotations => Entity.placeholder Annotation
  | node, .inPorts | node, .outPorts => Entity.placeholder Port
  | connection, .bendPoints => Coordinate.origin
  | configMap, .children => Config.emptyMap
  | workflow, .name | node, .id | node, .name | node, .kind | node, .bounds
  | node, .modelSettings => ()
  | bounds, .x | bounds, .y | bounds, .width | bounds, .height => ()
  | port, .index | port, .portType | port, .name => ()
  | connection, .sourceId | connection, .sourcePort | connection, .destId
  | connection, .destPort | connection, .deletable => ()
  | annotation, .text | annotation, .bounds | annotation, .borderSize | configValue, .value => ()

namespace Shape

/-- What a reader puts in the place of a member that it cannot read. -/
def fallback : (s : Shape) → s.Reader → s.Item
  | list _, reader | @parts _ _, reader | @namedParts _ _, reader => reader.fallback
  | required _, _ | optional _, _ | @requiredPart _ _, _ | @optionalPart _ _, _ => ()

end Shape

/-- The stand-in of a field is the one that its readers use. -/
theorem EntityType.fallback_readers (t : EntityType) (f : t.layout.Field) :
    (t.layout.shape f).fallback (t.readers f) = t.standIn f := by
  cases t <;> cases f <;> rfl

/-! ### What a list or map keeps -/

namespace Shape

/-- A member `a` with the tree `t` is what the item `d` alone is read as, or else the stand-in. A
part that stands in carries the error itself; for a plain value the error is a leaf. -/
def KeepsItem : (s : Shape) → s.Reader → s.Item → Document → s.Item → FaultTree → Prop
  | list _, reader, standIn, d, a, t =>
    (reader.read .tolerant d = .ok (.ok a) ∧ t = .empty) ∨
      ∃ e, reader.read .tolerant d = .ok (.error e) ∧ a = standIn ∧ t = .leaf ⟨.field e⟩
  | @parts _ _, reader, standIn, d, a, t | @namedParts _ _, reader, standIn, d, a, t =>
    t = HasFaults.faults a ∧ (reader.read .tolerant d = .ok (.ok a) ∨
      ∃ e, reader.read .tolerant d = .ok (.error e) ∧ a = HasFaults.mark ⟨.field e⟩ standIn ∧
        t.selfFault? = some ⟨.field e⟩)
  | required _, _, _, _, _, _ | optional _, _, _, _, _, _ | @requiredPart _ _, _, _, _, _, _
  | @optionalPart _ _, _, _, _, _, _ => False

/-- A list or map with content `c` and tree `t` keeps what is in the entry that it is read from, if
there is an entry other than null. -/
structure Keeps (s : Shape) (reader : s.Reader) (standIn : s.Item) (present : Option Document)
    (c : s.Content) (t : FaultTree) : Prop where
  /-- Without an entry there are no members and no faults. -/
  absent : present = none → s.elements c = [] ∧ t = .empty
  /-- From an entry of another shape there are no members and one fault. -/
  misshapen : ∀ d, present = some d → s.items? d = none →
    s.elements c = [] ∧ t = .node (some ⟨.field (d.mismatch s.wanted)⟩) []
  /-- Every item has become one member, under its key and in its place. -/
  members : ∀ d items, present = some d → s.items? d = some items →
    List.Forall₂ (fun item member => member.1 = item.1 ∧
      s.KeepsItem reader standIn item.2 member.2 ((t.child? item.1).getD .empty))
      items (s.elements c)

section

variable {s : Shape} {reader : s.Reader}

/-- Nothing stands in an untouched field. -/
theorem elements_unset (s : Shape) : s.elements (s.content s.unset) = [] := by
  cases s <;> rfl

/-- Lists and maps are never missing. -/
theorem isMissing_of_isCollection (hs : s.IsCollection) (slot : s.Slot) :
    s.isMissing slot = false := by
  cases s with
  | required | requiredPart | optional | optionalPart => cases hs
  | list | parts | namedParts => rfl

/-- What one item becomes. -/
theorem keepsItem_readItem (hs : s.IsCollection) (h : s.Tolerates reader) (d : Document) :
    s.KeepsItem reader (s.fallback reader) d (s.readItem reader d) (s.itemFaults reader d) := by
  have hpart : ∀ {α : Type} [HasFaults α] {reader : ItemReader α},
      Flowsheet.Tolerates reader.read →
        reader.read .tolerant d = .ok (.ok (reader.part d)) ∨
          ∃ e, reader.read .tolerant d = .ok (.error e) ∧
            reader.part d = HasFaults.mark ⟨.field e⟩ reader.fallback ∧
            (HasFaults.faults (reader.part d)).selfFault? = some ⟨.field e⟩ := by
    intro α _ reader h
    rw [h d, ItemReader.part]
    cases tolerantly reader.read d with
    | ok a => exact Or.inl rfl
    | error e =>
        refine Or.inr ⟨e, rfl, rfl, ?_⟩
        rw [HasFaults.faults_mark]
        exact FaultTree.selfFault?_inject _ _
  cases s with
  | required | optional | requiredPart | optionalPart => cases hs
  | list =>
      simp only [KeepsItem, readItem, itemFaults, fallback]
      rw [h d, ItemReader.element]
      cases tolerantly reader.read d with
      | ok a => exact Or.inl ⟨rfl, rfl⟩
      | error e => exact Or.inr ⟨e, rfl, rfl, rfl⟩
  | parts | namedParts => exact ⟨rfl, hpart h⟩

end

end Shape

/-! ### Entities -/

/-- What is read from the entries of a mapping keeps every list and every map among them. -/
theorem Layout.keeps_loadedRecord (t : EntityType) {es : List (String × Document)}
    (hes : (Document.mapping es).WellFormed) {f : t.layout.Field}
    (hs : (t.layout.shape f).IsCollection) :
    (t.layout.shape f).Keeps (t.readers f) (t.standIn f) (Document.present? (t.layout.name f) es)
      ((loadedRecord t.readers es).get f)
      ((loadedRecord t.readers es).faults.subtree (t.layout.name f)) := by
  -- a list or map is never missing, so the build leaves it as it was read
  have hslot : (Builder.loaded .tolerant t.readers es).settled.slot f =
      Builder.loadedSlot t.readers es f :=
    Shape.settled_of_not_isMissing _ (Shape.isMissing_of_isCollection hs _)
  have hget : (loadedRecord t.readers es).get f =
      (t.layout.shape f).content (Builder.loadedSlot t.readers es f) :=
    congrArg (Shape.content _) hslot
  have htree : (loadedRecord t.readers es).faults.subtree (t.layout.name f) =
      (t.layout.shape f).faults (Builder.loadedSlot t.readers es f) :=
    (Builder.subtree_toRecord _ f).trans (congrArg (Shape.faults _) hslot)
  have hpresent : ∀ d, Document.present? (t.layout.name f) es = some d →
      Builder.loadedSlot t.readers es f = (t.layout.shape f).loaded (t.readers f) d := by
    intro d hd
    unfold Builder.loadedSlot
    rw [hd]
  rw [hget, htree]
  constructor
  · intro hnone
    unfold Builder.loadedSlot
    rw [hnone]
    exact ⟨Shape.elements_unset _, Shape.faults_unset _⟩
  · intro d hd hitems
    rw [hpresent d hd]
    exact Shape.loaded_of_items?_eq_none _ hs hitems
  · intro d items hd hitems
    have hwf : d.WellFormed :=
      (Document.wellFormed_mapping.mp hes).2 _ (Document.mem_of_present? hd)
    have htolerate := t.readers_tolerate f
    rw [hpresent d hd, Shape.elements_loaded _ hwf hitems, List.forall₂_map_right_iff,
      List.forall₂_same]
    intro item hitem
    refine ⟨rfl, ?_⟩
    rw [Shape.child?_faults_loaded _ hwf hitems hitem, ← t.fallback_readers f]
    exact Shape.keepsItem_readItem hs htolerate item.2

/-! ### Loading -/

/-- The tolerant load of a mapping succeeds, and wherever a mapping in the document is read as an
entity, that entity stands at the mapping's path in the workflow, and each of its lists and maps
keeps its section of the document. -/
theorem load_keeps_items (source : String) {entries : List (String × Document)}
    (h : (Document.mapping entries).WellFormed) :
    ∃ l, LoadOptions.loadDocument ⟨source, .tolerant⟩ (.mapping entries) = .ok l ∧
      ∀ p t es, StandsAt .workflow entries p t es →
        ∃ r : Record t.layout, l.workflow.spot.entityAt? p = some ⟨t, r⟩ ∧
          ∀ f, (t.layout.shape f).IsCollection →
            (t.layout.shape f).Keeps (t.readers f) (t.standIn f)
              (Document.present? (t.layout.name f) es) (r.get f)
              (r.faults.subtree (t.layout.name f)) := by
  obtain ⟨w, hw, hload⟩ := LoadOptions.loadDocument_tolerant source entries
  rw [Workflow.read_tolerant] at hw
  cases hw
  refine ⟨_, hload, fun p t es hp => ?_⟩
  obtain ⟨hentity, hes⟩ := hp.entityAt?_eq h
  refine ⟨Layout.loadedRecord t.readers es, ?_, fun f hs => Layout.keeps_loadedRecord t hes hs⟩
  rw [Workflow.spot, Entity.toRecord_ofRecord]
  exact hentity

/-- A workflow with connections that are no list and two nodes, of which the first is a number and
the second has two ports: nothing at all, and a mapping without entries. -/
def mixedFlow : List (String × Document) :=
  [("nodes", .mapping [("a", .integer 5),
    ("b", .mapping [("in_ports", .sequence [.null, .mapping []])])]), ("connections", .integer 3)]

/-- The nodes and the second node's ports are kept. -/
theorem load_keeps_items_mixedFlow :
    (Document.mapping mixedFlow).WellFormed ∧
    ∃ l, LoadOptions.loadDocument ⟨"w", .tolerant⟩ (.mapping mixedFlow) = .ok l ∧
      ∃ (flow : Record Workflow.layout) (b : Record Node.layout),
        l.workflow.spot.entityAt? [] = some ⟨.workflow, flow⟩ ∧
        l.workflow.spot.entityAt? [.field "nodes", .key "b"] = some ⟨.node, b⟩ ∧
        (Workflow.layout.shape .nodes).Keeps Node.reader (Entity.placeholder Node)
          (Document.present? "nodes" mixedFlow) (flow.get .nodes) (flow.faults.subtree "nodes") ∧
        (Node.layout.shape .inPorts).Keeps Port.reader (Entity.placeholder Port)
          (some (.sequence [.null, .mapping []])) (b.get .inPorts)
          (b.faults.subtree "in_ports") := by
  have hwf : (Document.mapping mixedFlow).WellFormed := by
    simp [mixedFlow, Document.WellFormed, Document.WellFormedEntries, Document.WellFormedItems,
      Assoc.keys]
  have hb : StandsAt .workflow mixedFlow [.field "nodes", .key "b"] .node
      [("in_ports", .sequence [.null, .mapping []])] :=
    .member (t := .workflow) (f := .nodes) rfl rfl (List.mem_cons_of_mem _ List.mem_cons_self) rfl
      .root
  obtain ⟨l, hl, hkept⟩ := load_keeps_items "w" hwf
  obtain ⟨flow, hflow, hsections⟩ := hkept _ _ _ .root
  obtain ⟨b, hnode, hports⟩ := hkept _ _ _ hb
  exact ⟨hwf, l, hl, flow, b, hflow, hnode, hsections .nodes trivial, hports .inPorts trivial⟩

end Flowsheet
