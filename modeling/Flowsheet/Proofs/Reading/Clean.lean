import Flowsheet.Proofs.Fault.Composed
import Flowsheet.Proofs.Reading.Origin

/-!
# No hollow trees

Whether a load was clean is decided by a look at the outermost constructor of the workflow's tree.
That this look is enough is a matter of all trees that the constructors can make: no node of theirs
is hollow, that is, none has an empty child and none is without any fault (`no_hollow_tree`).

Trees of entities are among them. A builder keeps composed trees in its fields and entities with
composed trees as parts (`Builder.KeepsComposed`), a finished build merges them, and a mark injects
one more fault; so the tree of everything that can be made, loaded workflows included, is composed
(`Reachable.composed`).
-/

namespace Flowsheet

open FaultTree

/-! ### Fields -/

namespace Shape

/-- The tree that a field stores besides those of parts in lists and maps is composed. -/
def StoresComposed : (s : Shape) → s.Slot → Prop
  | required _, slot | optional _, slot | @requiredPart _ _, slot | @optionalPart _ _, slot =>
    Composed slot.faults
  | list _, slot => Composed slot.bulkFaults
  | @parts _ _, _ | @namedParts _ _, _ => True

/-- An untouched field stores the empty tree. -/
theorem storesComposed_unset (s : Shape) : s.StoresComposed s.unset := by
  cases s with
  | parts _ | namedParts _ => trivial
  | required _ | optional _ | requiredPart _ | optionalPart _ | list _ => exact Composed.empty

/-- A field that is taken over stores a composed tree if it had one. -/
theorem storesComposed_copied (s : Shape) (c : s.Content) {t : FaultTree} (h : Composed t) :
    s.StoresComposed (s.copied c t) := by
  cases s with
  | parts _ | namedParts _ => trivial
  | required _ | optional _ | requiredPart _ | optionalPart _ | list _ => exact h

variable {s : Shape} {types : List EntityType} {view : s.PartView}

/-- A call stores the tree of a part that it hands over, a leaf, or a single fault. -/
theorem StoresComposed.applied (hview : PartView.Lawful types s view) {c : s.Call}
    (hgiven : ∀ x ∈ s.given view c, Composed x.faults) {slot : s.Slot}
    (h : s.StoresComposed slot) : s.StoresComposed (s.applied c slot) := by
  have hsingle : ∀ fault, Composed (FaultTree.empty.inject fault) := Composed.empty.inject
  cases s with
  | parts _ | namedParts _ => trivial
  | required _ | optional _ =>
      rcases c with v | ⟨e | v, fallback⟩
      · exact Composed.empty
      · exact Composed.leaf ⟨e⟩
      · exact Composed.empty
  | list _ =>
      rcases c with vs | ⟨e | vs, fallback⟩ | v | ⟨e | v, fallback⟩
      · exact Composed.empty
      · exact hsingle ⟨e⟩
      · exact Composed.empty
      · exact h
      · exact h
      · exact h
  | requiredPart α =>
      have hpart : ∀ a : α, view a ∈ (requiredPart α).given view c →
          Composed (HasFaults.faults a) := fun a ha => hview.faults_view a ▸ hgiven _ ha
      rcases c with v | ⟨e | v, _ | fallback⟩
      · exact hpart v List.mem_cons_self
      · exact hsingle ⟨e⟩
      · show Composed (HasFaults.faults (HasFaults.mark ⟨e⟩ fallback))
        rw [HasFaults.faults_mark]
        exact (hpart fallback List.mem_cons_self).inject ⟨e⟩
      · exact hpart v List.mem_cons_self
      · exact hpart v List.mem_cons_self
  | optionalPart α =>
      have hpart : ∀ a : α, view a ∈ (optionalPart α).given view c →
          Composed (HasFaults.faults a) := fun a ha => hview.faults_view a ▸ hgiven _ ha
      rcases c with v | ⟨e | _ | v, _ | fallback⟩
      · exact hpart v List.mem_cons_self
      · exact hsingle ⟨e⟩
      · show Composed (HasFaults.faults (HasFaults.mark ⟨e⟩ fallback))
        rw [HasFaults.faults_mark]
        exact (hpart fallback List.mem_cons_self).inject ⟨e⟩
      · exact Composed.empty
      · exact Composed.empty
      · exact hpart v List.mem_cons_self
      · exact hpart v List.mem_cons_self

/-- What a finished entity takes over from a field is composed. -/
theorem StoresComposed.faults (hview : PartView.Lawful types s view) {slot : s.Slot}
    (h : s.StoresComposed slot) (hstored : ∀ x ∈ s.stored view slot, Composed x.faults) :
    Composed (s.faults slot) := by
  cases s with
  | required _ | optional _ | requiredPart _ | optionalPart _ => exact h
  | list _ =>
      refine Composed.merge _ fun c hc => ?_
      rcases List.mem_append.mp hc with hbulk | hadded
      · exact Composed.of_mem_children h hbulk
      · rw [ListSlot.addedFaults_eq, indexed_eq_map] at hadded
        obtain ⟨e, he, rfl⟩ := List.mem_map.mp (List.mem_filter.mp hadded).1
        obtain ⟨⟨a, _ | fault⟩, -, he⟩ := List.mem_map.mp (List.fst_mem_of_mem_zipIdx he)
        · exact he ▸ Composed.empty
        · exact he ▸ Composed.leaf fault
  | parts α =>
      refine Composed.merge _ fun c hc => ?_
      rw [ListSlot.partFaultsFrom_eq, indexed_eq_map] at hc
      obtain ⟨e, he, rfl⟩ := List.mem_map.mp hc
      obtain ⟨a, ha, he⟩ := List.mem_map.mp (List.fst_mem_of_mem_zipIdx he)
      have hmember : view a ∈ (parts α).members view ((parts α).content slot) :=
        List.mem_map.mpr ⟨a, ha, rfl⟩
      show Composed e.1
      rw [← he, ← hview.faults_view a]
      exact hstored _ (mem_stored_of_mem_members hmember)
  | namedParts α =>
      refine Composed.merge _ fun c hc => ?_
      obtain ⟨e, he, rfl⟩ := List.mem_map.mp hc
      have hmember : view e.2 ∈ (namedParts α).members view ((namedParts α).content slot) :=
        List.mem_map.mpr ⟨e, he, rfl⟩
      show Composed (HasFaults.faults e.2)
      rw [← hview.faults_view e.2]
      exact hstored _ (mem_stored_of_mem_members hmember)

end Shape

/-! ### Builders and entities -/

namespace Builder

variable {t : EntityType}

/-- All fields store composed trees, and so do all parts in them. -/
def KeepsComposed (b : Builder t.layout) : Prop :=
  ∀ f, (t.layout.shape f).StoresComposed (b.slot f) ∧
    ∀ x ∈ (t.layout.shape f).stored (t.partView f) (b.slot f), Composed x.faults

/-- A new builder keeps empty trees and no parts. -/
theorem KeepsComposed.new (t : EntityType) (mode : BuildMode) :
    KeepsComposed (Builder.new t.layout mode) := by
  intro f
  refine ⟨Shape.storesComposed_unset _, fun x hx => ?_⟩
  rw [show (Builder.new t.layout mode).slot f = (t.layout.shape f).unset from rfl,
    Shape.stored_unset] at hx
  cases hx

/-- A builder that goes on from an entity. -/
theorem KeepsComposed.ofRecord {r : Record t.layout} (h : Composed r.faults)
    (hmembers : ∀ f, ∀ x ∈ AnyEntity.members ⟨t, r⟩ f, Composed x.faults) :
    KeepsComposed (Builder.ofRecord r) := by
  intro f
  refine ⟨Shape.storesComposed_copied _ _ (h.subtree _), fun x hx => hmembers f x ?_⟩
  rwa [show (Builder.ofRecord r).slot f = (t.layout.shape f).copied (r.get f) _ from rfl,
    Shape.stored_copied] at hx

/-- Any sequence of calls, some of which may be refused. -/
theorem KeepsComposed.attempts {b : Builder t.layout} (h : b.KeepsComposed)
    {calls : List (Call t.layout)} (hgiven : ∀ c ∈ calls, ∀ x ∈ c.given, Composed x.faults) :
    (b.attempts calls).KeepsComposed := by
  refine attempts_induction
    (P := fun f slot => (t.layout.shape f).StoresComposed slot ∧
      ∀ x ∈ (t.layout.shape f).stored (t.partView f) slot, Composed x.faults)
    (fun c hc slot hslot => ?_) h
  have hview := t.partView_lawful c.field
  refine ⟨hslot.1.applied hview (hgiven c hc), fun x hx => ?_⟩
  rcases Shape.mem_stored_applied hview hx with
    hold | hnew | ⟨-, hfallback | ⟨y, hy, fault, rfl⟩⟩
  · exact hslot.2 x hold
  · exact hgiven c hc x (Shape.supplied_subset_given _ _ _ hnew)
  · exact hgiven c hc x hfallback
  · exact (hgiven c hc y hy).inject fault

/-- What a build in either mode hands over. -/
theorem KeepsComposed.build {b : Builder t.layout} (h : b.KeepsComposed) {r : Record t.layout}
    (hbuild : b.build = .ok r) :
    Composed r.faults ∧ ∀ f, ∀ x ∈ AnyEntity.members ⟨t, r⟩ f, Composed x.faults := by
  obtain rfl := eq_toRecord_settled_of_build hbuild
  constructor
  · refine Composed.merge none fun c hc => ?_
    obtain ⟨f, -, rfl⟩ := List.mem_map.mp hc
    show Composed ((t.layout.shape f).faults ((t.layout.shape f).settled _ (b.slot f)))
    cases hmissing : (t.layout.shape f).isMissing (b.slot f) with
    | true =>
        rw [Shape.faults_settled_of_isMissing _ hmissing]
        exact Composed.leaf _
    | false =>
        rw [Shape.settled_of_not_isMissing _ hmissing]
        exact (h f).1.faults (t.partView_lawful f) (h f).2
  · intro f x hx
    exact (h f).2 x (Shape.mem_stored_of_settled (Shape.mem_stored_of_mem_members hx))

end Builder

/-- The trees of entities that can be made can be composed, and so can those of their parts. -/
theorem Reachable.composed {x : AnyEntity} (h : Reachable x) :
    Composed x.faults ∧ ∀ f, ∀ y ∈ x.members f, Composed y.faults := by
  induction h with
  | placeholder t =>
      refine ⟨Composed.missing _, fun f y hy => ?_⟩
      have hblank : y ∈ (t.layout.shape f).members (t.partView f) (t.layout.shape f).blank := hy
      rw [Shape.members_blank] at hblank
      cases hblank
  | built mode calls _ _ hbuild ih =>
      exact ((Builder.KeepsComposed.new _ mode).attempts fun c hc x hx => (ih c hc x hx).1).build
        hbuild
  | rebuilt _ calls _ _ hbuild ihstart ih =>
      exact ((Builder.KeepsComposed.ofRecord ihstart.1 ihstart.2).attempts
        fun c hc x hx => (ih c hc x hx).1).build hbuild
  | marked _ fault ih => exact ⟨ih.1.inject fault, ih.2⟩

/-! ### Loads -/

namespace LoadOptions

/-- Loading gives the faults of the workflow's tree as diagnostics. -/
theorem diagnostics_of_loadDocument {o : LoadOptions} {d : Document} {l : Loaded}
    (h : o.loadDocument d = .ok l) : l.diagnostics = l.workflow.faults.diagnostics o.source := by
  unfold loadDocument at h
  split at h
  · obtain ⟨w, -, rfl⟩ := exists_of_map_eq_ok h
    rfl
  · cases h

/-- What is loaded from a text is loaded from the document that the parser takes it for. -/
theorem exists_loadDocument_of_loadTextBy {o : LoadOptions} {parse : Parser} {text : String}
    {l : Loaded} (h : o.loadTextBy parse text = .ok l) : ∃ d, o.loadDocument d = .ok l := by
  unfold loadTextBy at h
  split at h
  · exact ⟨_, h⟩
  · cases h

/-- What is loaded from a file is loaded from a document, too. -/
theorem exists_loadDocument_of_loadFileBy {o : LoadOptions} {parse : Parser} {access : FileAccess}
    {path : String} {l : Loaded} (h : o.loadFileBy parse access path = .ok l) :
    ∃ d, o.loadDocument d = .ok l := by
  unfold loadFileBy at h
  split at h
  · exact exists_loadDocument_of_loadTextBy h
  · cases h

/-- A load is clean just if the workflow has no faults. -/
theorem isClean_iff_of_loadDocument {o : LoadOptions} {d : Document} {l : Loaded}
    (h : o.loadDocument d = .ok l) :
    l.isClean = true ↔ HasFaults.isFaulty l.workflow = false := by
  have hcanonical : Canonical l.workflow.faults :=
    (reachable_of_loadDocument h).composed.1.canonical
  show l.diagnostics.isEmpty = true ↔ l.workflow.faults.hasFaults = false
  rw [diagnostics_of_loadDocument h, List.isEmpty_iff, diagnostics, List.map_eq_nil_iff,
    faults_eq_nil_iff hcanonical, hasFaults_eq_false_iff]

end LoadOptions

/-- No composed tree is hollow. At every depth, no node has an empty child, and none is without a
fault of its own and without children. So a composed tree is empty just if it lists no fault, counts
no fault, or equals the empty tree. And whatever is loaded, in either mode, by any parser and with
any access to files, the load is clean just if the workflow has no faults. -/
theorem no_hollow_tree :
    (∀ t, Composed t →
      (∀ own cs, Within (.node own cs) t → (own ≠ none ∨ cs ≠ []) ∧ ∀ c ∈ cs, c.2 ≠ .empty) ∧
      (t.isEmpty = true ↔ t.faults = []) ∧ (t.isEmpty = true ↔ t.len = 0) ∧
      (t.isEmpty = true ↔ t = .empty) ∧ (t.isEmpty = true ↔ (t == .empty) = true)) ∧
    ∀ (parse : Parser) (access : FileAccess) (o : LoadOptions) (l : Loaded),
      ((∃ d, o.loadDocument d = .ok l) ∨ (∃ text, o.loadTextBy parse text = .ok l) ∨
        ∃ path, o.loadFileBy parse access path = .ok l) →
      (l.isClean = true ↔ HasFaults.isFaulty l.workflow = false) := by
  constructor
  · intro t ht
    refine ⟨fun own cs hnode => ?_, ht.canonical.isEmpty_iff_faults, ht.canonical.isEmpty_iff_len,
      isEmpty_iff, isEmpty_iff.trans beq_empty_iff.symm⟩
    obtain ⟨hparts, -, hbelow⟩ := ht.canonical.within hnode
    exact ⟨hparts, fun c hc => (canonicalBelow_iff.mp hbelow c hc).1⟩
  · intro parse access o l h
    have hdocument : ∃ d, o.loadDocument d = .ok l := by
      rcases h with hd | ⟨text, htext⟩ | ⟨path, hfile⟩
      · exact hd
      · exact LoadOptions.exists_loadDocument_of_loadTextBy htext
      · exact LoadOptions.exists_loadDocument_of_loadFileBy hfile
    obtain ⟨d, hd⟩ := hdocument
    exact LoadOptions.isClean_iff_of_loadDocument hd

/-- A tree under whose one key stand an empty tree, a fault and once more an empty tree. -/
def FaultTree.repeatedKey : FaultTree :=
  .merge none [(.index 0, .empty), (.index 0, .leaf (Fault.missing "x")), (.index 0, .empty)]

/-- The tree is made by one merge. -/
theorem FaultTree.composed_repeatedKey : Composed repeatedKey := by
  refine Composed.merge none fun c hc => ?_
  simp only [List.mem_cons, List.not_mem_nil, or_false] at hc
  rcases hc with rfl | rfl | rfl
  · exact Composed.empty
  · exact Composed.leaf _
  · exact Composed.empty

/-- A volume with one file, in which a workflow has one node without a number and a name. -/
def Volume.withNamelessNode : Volume :=
  ⟨[], [(["flow.yml"], "nodes:\n  n:\n    kind: COMPONENT\n".toUTF8)]⟩

/-- The tree keeps one child, and that one is not empty; and loads with a fault are not clean, be it
of a document or of a file. -/
theorem no_hollow_tree_nestedFault :
    (∃ cs, FaultTree.repeatedKey = .node none cs ∧ cs.length = 1 ∧ ∀ c ∈ cs, c.2 ≠ .empty) ∧
    (∃ l, LoadOptions.loadDocument ⟨"w", .tolerant⟩ (.mapping LoadOptions.nestedFault) = .ok l ∧
      HasFaults.isFaulty l.workflow = true ∧ l.isClean = false) ∧
    ∃ l, LoadOptions.loadFileBy ⟨"w", .tolerant⟩ Document.parser Volume.withNamelessNode.access
        "flow.yml" = .ok l ∧
      l.isClean = false ∧ HasFaults.isFaulty l.workflow = true := by
  refine ⟨?_, ?_, ?_⟩
  · exact ⟨_, rfl, rfl, ((no_hollow_tree.1 _ composed_repeatedKey).1 _ _ (Within.self _)).2⟩
  · obtain ⟨w, -, hload⟩ := LoadOptions.loadDocument_tolerant "w" LoadOptions.nestedFault
    have hfaulty : HasFaults.isFaulty w = true := by
      obtain rfl := congrArg Loaded.workflow (Except.ok.inj hload)
      rfl
    have hiff := no_hollow_tree.2 Document.parser Volume.withNamelessNode.access _ _
      (.inl ⟨_, hload⟩)
    refine ⟨_, hload, hfaulty, Bool.eq_false_iff.mpr fun hclean => ?_⟩
    exact Bool.false_ne_true ((hiff.mp hclean).symm.trans hfaulty)
  · have hrun : ((LoadOptions.loadFileBy ⟨"w", .tolerant⟩ Document.parser
        Volume.withNamelessNode.access "flow.yml").toOption.map Loaded.isClean) = some false := by
      decide +kernel
    cases hload : LoadOptions.loadFileBy ⟨"w", .tolerant⟩ Document.parser
        Volume.withNamelessNode.access "flow.yml" with
    | error e =>
        rw [hload] at hrun
        cases hrun
    | ok l =>
        rw [hload] at hrun
        have hclean : l.isClean = false := Option.some.inj hrun
        have hiff := no_hollow_tree.2 _ _ _ _ (.inr (.inr ⟨_, hload⟩))
        refine ⟨l, rfl, hclean, (Bool.eq_false_or_eq_true _).resolve_right fun hfaultless => ?_⟩
        exact Bool.false_ne_true (hclean.symm.trans (hiff.mpr hfaultless))

end Flowsheet
