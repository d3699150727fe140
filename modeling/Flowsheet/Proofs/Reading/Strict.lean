import Flowsheet.Proofs.Build.Trees
import Flowsheet.Proofs.Reading.Run
import Flowsheet.Proofs.Schema

/-!
# Strict reading against tolerant reading

A strict read does what the tolerant one does until it meets a fault. `Follows` says so of one run:
where the tolerant run leaves no fault the strict run has the same result, and otherwise it ends
with the first fault of the tree in the order of `FaultTree.visit`, reported for the field that the
fault's path names last.

The statement holds of every reader by the way readers are put together: for the items of a list or
map (`Follows.items`), for the entry of one field (`Shape.read_follows`), for the fields of an
entity and the required ones among them (`Builder.read_follows`), and for configurations by
induction on depth. For loading it says when a strict load succeeds
(`strict_load_iff_no_diagnostics`) and with what it fails (`strict_load_fails_at_first_fault`).
-/

namespace Flowsheet

open EntityType FaultTree

/-! ### One run -/

section

variable {α β : Type} {types : List EntityType} {last : Option ((t : EntityType) × t.layout.Field)}

/-- The error reports the first fault of a tree, for the field that the fault's path names last;
`last` is the field in which the tree itself hangs. -/
def Aborts (types : List EntityType) (last : Option ((t : EntityType) × t.layout.Field))
    (tree : FaultTree) (e : BuildError) : Prop :=
  ∃ path fault field, tree.first? = some (path, fault) ∧ ownerFrom types last path = some field ∧
    e = .strict field.1.layout.entity (field.1.layout.key field.2) fault.cause

/-- A strict run beside a tolerant one that leaves a result and a tree. -/
def Follows (types : List EntityType) (last : Option ((t : EntityType) × t.layout.Field))
    (tree : FaultTree) (result : α) (run : Except BuildError α) : Prop :=
  (tree = .empty ∧ run = .ok result) ∨ ∃ e, run = .error e ∧ Aborts types last tree e

/-- What is reported of a tree by itself is reported of it wherever it hangs, as the path names a
field. -/
theorem Aborts.of_none {tree : FaultTree} {e : BuildError} (h : Aborts types none tree e) :
    Aborts types last tree e := by
  obtain ⟨path, fault, field, hfirst, howner, he⟩ := h
  exact ⟨path, fault, field, hfirst, ownerFrom_of_none howner last, he⟩

/-- A fault at the root is reported for the field in which the tree hangs. -/
theorem Aborts.of_root {field : (t : EntityType) × t.layout.Field} {tree : FaultTree}
    (fault : Fault) (h : tree.first? = some ([], fault)) :
    Aborts types (some field) tree
      (.strict field.1.layout.entity (field.1.layout.key field.2) fault.cause) :=
  ⟨[], fault, field, h, rfl, rfl⟩

/-- There is something to report only where there is a fault. -/
theorem Aborts.ne_empty {tree : FaultTree} {e : BuildError} (h : Aborts types last tree e) :
    tree ≠ .empty := by
  obtain ⟨path, fault, field, hfirst, -⟩ := h
  rintro rfl
  cases hfirst

/-- What is made of both runs in the same way keeps them together. -/
theorem Follows.map {tree : FaultTree} {result : α} {run : Except BuildError α} (f : α → β)
    (h : Follows types last tree result run) : Follows types last tree (f result) (run.map f) := by
  rcases h with ⟨hempty, hrun⟩ | ⟨e, hrun, habort⟩
  · exact Or.inl ⟨hempty, by rw [hrun]; rfl⟩
  · exact Or.inr ⟨e, by rw [hrun]; rfl, habort⟩

end

/-! ### Items of a list or map -/

/-- Either all items leave an empty tree or there is a first one that does not. -/
theorem exists_first_faulty {ι : Type} (tree : ι → FaultTree) (items : List ι) :
    (∀ x ∈ items, tree x = .empty) ∨
      ∃ pre x post, items = pre ++ x :: post ∧ (∀ y ∈ pre, tree y = .empty) ∧ tree x ≠ .empty := by
  simpa only [hasFaults_eq_false_iff, hasFaults_iff] using
    exists_first (fun x => (tree x).hasFaults) items

/-- Only children under names of fields are gaps. -/
theorem FaultTree.isGap_of_ne_field {key : FaultKey} (h : ∀ name, key ≠ .field name)
    (tree : FaultTree) : isGap key tree = false := by
  cases key with
  | field name => exact absurd rfl (h name)
  | index i | key k | prior => rfl

/-- A fault that was injected is met first. -/
theorem FaultTree.first?_inject (fault : Fault) (tree : FaultTree) :
    (tree.inject fault).first? = some ([], fault) := by
  rcases tree with _ | _ | ⟨_ | _, _⟩ <;> rfl

section

variable {types : List EntityType} {field : (t : EntityType) × t.layout.Field}

/-- What the first faulty member of a collection ends with, the collection ends with. -/
theorem Aborts.member {cs : List (FaultKey × FaultTree)} (hkeys : (Assoc.keys cs).Nodup)
    (hnames : ∀ c ∈ cs, ∀ name, c.1 ≠ .field name) (pre post : List FaultTree) {tree : FaultTree}
    (hcs : cs.map (·.2) = pre ++ tree :: post) (hpre : ∀ u ∈ pre, u = .empty) {e : BuildError}
    (h : Aborts types (some field) tree e) : Aborts types (some field) (merge none cs) e := by
  obtain ⟨path, fault, owner, hfirst, howner, he⟩ := h
  obtain ⟨pre', tail, rfl, rfl, htail⟩ := List.map_eq_append_iff.mp hcs
  obtain ⟨⟨key, _⟩, post', rfl, rfl, rfl⟩ := List.map_eq_cons_iff.mp htail
  have hkey : ∀ name, key ≠ .field name :=
    hnames (key, _) (List.mem_append_right _ List.mem_cons_self)
  refine ⟨key :: path, fault, owner, ?_, ?_, he⟩
  · refine first?_merge_of_prompt hkeys (fun c hc => Or.inl ?_) (isGap_of_ne_field hkey _) hfirst
    exact hpre c.2 (List.mem_map.mpr ⟨c, hc, rfl⟩)
  · cases key with
    | field name => exact absurd rfl (hkey name)
    | index i | key k | prior => exact howner

/-- A pass over items, each of which leaves a tree in the collection's tree. -/
theorem Follows.items {σ ι : Type} {step : σ → ι → Except BuildError σ} {effect : σ → ι → σ}
    (tree : ι → FaultTree) {items : List ι}
    (hitems : ∀ x ∈ items, (tree x = .empty ∧ ∀ s, step s x = .ok (effect s x)) ∨
      ∃ e, (∀ s, step s x = .error e) ∧ Aborts types (some field) (tree x) e)
    {cs : List (FaultKey × FaultTree)} (hkeys : (Assoc.keys cs).Nodup)
    (hnames : ∀ c ∈ cs, ∀ name, c.1 ≠ .field name) (hcs : cs.map (·.2) = items.map tree) (s : σ) :
    Follows types (some field) (merge none cs) (items.foldl effect s) (items.foldlM step s) := by
  have hok : ∀ x ∈ items, tree x = .empty → ∀ s, step s x = .ok (effect s x) := by
    intro x hx hempty
    rcases hitems x hx with ⟨-, hstep⟩ | ⟨e, -, habort⟩
    · exact hstep
    · exact absurd hempty habort.ne_empty
  rcases exists_first_faulty tree items with hclean | ⟨pre, x, post, rfl, hclean, hfaulty⟩
  · refine Or.inl ⟨(merge_eq_empty_iff hkeys).mpr ⟨rfl, ?_⟩, foldlM_eq_ok effect ?_ s⟩
    · intro c hc
      have hmem : c.2 ∈ items.map tree := hcs ▸ List.mem_map.mpr ⟨c, hc, rfl⟩
      obtain ⟨x, hx, hxc⟩ := List.mem_map.mp hmem
      rw [← hxc, hclean x hx]
    · exact fun x hx => hok x hx (hclean x hx)
  · rcases hitems x (List.mem_append_right _ List.mem_cons_self) with
      ⟨hempty, -⟩ | ⟨e, hstep, habort⟩
    · exact absurd hempty hfaulty
    · refine Or.inr ⟨e, foldlM_eq_error effect ?_ hstep s, ?_⟩
      · exact fun y hy => hok y (List.mem_append_left _ hy) (hclean y hy)
      · refine Aborts.member hkeys hnames (pre.map tree) (post.map tree) ?_ ?_ habort
        · rw [hcs, List.map_append, List.map_cons]
        · intro u hu
          obtain ⟨y, hy, rfl⟩ := List.mem_map.mp hu
          exact hclean y hy

end

/-! ### Readers -/

section

variable {α : Type} [HasFaults α] {types : List EntityType}

/-- A strict run that follows what tolerant reading of a part comes to; the part's tree is no leaf,
so that it is not taken for a field that is missing. -/
def Mirrored (types : List EntityType) : Except FieldError α → Reading α → Prop
  | .error e, run => run = .ok (.error e)
  | .ok a, run =>
    (∀ fault, HasFaults.faults a ≠ .leaf fault) ∧
      Follows types none (HasFaults.faults a) (.ok a) run

/-- Strict runs of the reader follow its tolerant runs. -/
def Mirrors (types : List EntityType) (read : BuildMode → Document → Reading α) : Prop :=
  Tolerates read ∧ ∀ d, d.WellFormed → Mirrored types (tolerantly read d) (read .strict d)

/-- Strict runs of the readers of a field follow their tolerant runs. -/
def Shape.Mirrors (types : List EntityType) : (s : Shape) → s.Reader → Prop
  | required _, reader | optional _, reader => ∀ d name, reader d ≠ .error (.missing name)
  | @requiredPart _ _, reader | @optionalPart _ _, reader => Flowsheet.Mirrors types reader
  | list _, reader => ∀ mode d, reader.read mode d = .ok (tolerantly reader.read d)
  | @parts _ _, reader | @namedParts _ _, reader => Flowsheet.Mirrors types reader.read

/-- Readers whose strict runs follow their tolerant runs never end a tolerant build. -/
theorem Shape.Mirrors.tolerates {s : Shape} {reader : s.Reader} (h : s.Mirrors types reader) :
    s.Tolerates reader := by
  cases s with
  | required _ | optional _ => trivial
  | requiredPart _ | optionalPart _ | parts _ | namedParts _ => exact h.1
  | list _ => exact h .tolerant

variable {field : (t : EntityType) × t.layout.Field}

/-- One item that is read and supplied: either its part has no fault, and it is put, or the run ends
with the first fault of the part. -/
theorem Mirrors.item {reader : ItemReader α} (h : Mirrors types reader.read) {d : Document}
    (hd : d.WellFormed) {σ : Type} (supply : Except Cause α → σ → Except BuildError σ)
    {put : σ → α → σ} (hok : ∀ a s, supply (.ok a) s = .ok (put s a))
    (herror : ∀ cause s, supply (.error cause) s =
      .error (.strict field.1.layout.entity (field.1.layout.key field.2) cause)) :
    (HasFaults.faults (reader.part d) = .empty ∧
      ∀ s, (reader.read .strict d).bind (fun r => supply (supplyOf r) s) =
        .ok (put s (reader.part d))) ∨
    ∃ e, (∀ s, (reader.read .strict d).bind (fun r => supply (supplyOf r) s) = .error e) ∧
      Aborts types (some field) (HasFaults.faults (reader.part d)) e := by
  have hread := h.2 d hd
  unfold ItemReader.part
  cases hr : tolerantly reader.read d with
  | error e =>
      rw [hr] at hread
      have hrun : reader.read .strict d = .ok (.error e) := hread
      refine Or.inr ⟨_, fun s => ?_, Aborts.of_root ⟨.field e⟩ ?_⟩
      · rw [hrun]
        exact herror (.field e) s
      · simp only []
        rw [HasFaults.faults_mark]
        exact first?_inject _ _
  | ok a =>
      rw [hr] at hread
      obtain ⟨-, ⟨hempty, hrun⟩ | ⟨e, hrun, habort⟩⟩ := hread
      · refine Or.inl ⟨hempty, fun s => ?_⟩
        rw [hrun]
        exact hok a s
      · refine Or.inr ⟨e, fun s => ?_, habort.of_none⟩
        rw [hrun]
        rfl

/-- A field without a part: the tree is that of the failed supply. -/
theorem Follows.failed {σ : Type} {slot : σ} (tree : FaultTree) (e : FieldError)
    (h : tree.first? = some ([], ⟨.field e⟩)) :
    Follows types (some field) tree slot
      (.error (.strict field.1.layout.entity (field.1.layout.key field.2) (.field e))) :=
  Or.inr ⟨_, rfl, Aborts.of_root ⟨.field e⟩ h⟩

/-- A single part. -/
theorem Mirrors.single {read : BuildMode → Document → Reading α} (h : Mirrors types read)
    {d : Document} (hd : d.WellFormed) (supply : Except Cause α → Except BuildError (Slot α))
    (hok : ∀ a, supply (.ok a) = .ok (.assignedPart (some a)))
    (herror : ∀ cause, supply (.error cause) =
      .error (.strict field.1.layout.entity (field.1.layout.key field.2) cause))
    {slot : Slot α} (hslot : slot = match tolerantly read d with
      | .ok a => .assignedPart (some a)
      | .error e => .fallenBackPart none ⟨.field e⟩) :
    (∀ name, isGap (.field name) slot.faults = false) ∧
    Follows types (some field) slot.faults slot
      ((read .strict d).bind fun r => supply (supplyOf r)) := by
  have hread := h.2 d hd
  subst hslot
  cases hr : tolerantly read d with
  | error e =>
      rw [hr] at hread
      have hrun : read .strict d = .ok (.error e) := hread
      refine ⟨fun name => rfl, ?_⟩
      rw [hrun]
      show Follows types (some field) _ _ (supply (.error (.field e)))
      rw [herror]
      exact Follows.failed _ e rfl
  | ok a =>
      rw [hr] at hread
      obtain ⟨hleaf, ⟨hempty, hrun⟩ | ⟨e, hrun, habort⟩⟩ := hread
      · refine ⟨fun name => ?_, Or.inl ⟨hempty, ?_⟩⟩
        · show isGap (.field name) (HasFaults.faults a) = false
          rw [hempty]
          rfl
        · rw [hrun]
          exact hok a
      · refine ⟨fun name => ?_, Or.inr ⟨e, ?_, habort.of_none⟩⟩
        · show isGap (.field name) (HasFaults.faults a) = false
          cases hfaults : HasFaults.faults a with
          | leaf fault => exact absurd hfaults (hleaf fault)
          | empty | node own cs => rfl
        · rw [hrun]
          rfl

end

/-! ### One field -/

/-- Only leaves are gaps. -/
theorem FaultTree.isGap_ofParts (key : FaultKey) (own : Option Fault)
    (cs : List (FaultKey × FaultTree)) : isGap key (ofParts own cs) = false := by
  cases key <;> cases own <;> cases cs <;> rfl

/-- So a merged tree is none. -/
theorem FaultTree.isGap_merge (key : FaultKey) (own : Option Fault)
    (cs : List (FaultKey × FaultTree)) : isGap key (merge own cs) = false :=
  isGap_ofParts key own _

/-- A merged tree is no leaf. -/
theorem FaultTree.merge_ne_leaf {own : Option Fault} {cs : List (FaultKey × FaultTree)}
    (fault : Fault) : merge own cs ≠ .leaf fault := by
  unfold merge
  cases own <;> cases Assoc.ofList (cs.filter fun c => c.2.hasFaults) <;> intro h <;> cases h

/-- The trees of a list do not hang under names of fields. -/
theorem FaultTree.ne_field_of_mem_indexed {offset : Nat} {ts : List FaultTree}
    {c : FaultKey × FaultTree} (hc : c ∈ indexed offset ts) (name : String) :
    c.1 ≠ .field name := by
  intro heq
  obtain ⟨i, -, hi⟩ := exists_of_mem_keys_indexed (Assoc.mem_keys_of_mem hc)
  rw [heq] at hi
  cases hi

/-- Nor do those of a map. -/
theorem FaultTree.ne_field_of_mem_named {ι : Type} {entries : List (String × ι)}
    {f : String × ι → FaultTree} {c : FaultKey × FaultTree}
    (hc : c ∈ entries.map fun x => (FaultKey.key x.1, f x)) (name : String) :
    c.1 ≠ .field name := by
  intro heq
  obtain ⟨k, hk⟩ := exists_of_mem_keys_named (Assoc.mem_keys_of_mem hc)
  rw [heq] at hk
  cases hk

namespace Shape

variable {types : List EntityType} (field : (t : EntityType) × t.layout.Field) {d : Document}

/-- A strict run on the entry of a field follows the tolerant one. -/
def ReadFollows (s : Shape) (types : List EntityType) (field : (t : EntityType) × t.layout.Field)
    (reader : s.Reader) (d : Document) : Prop :=
  Follows types (some field) (s.faults (s.loaded reader d)) (s.loaded reader d)
    (s.read ⟨field.1.layout.entity, .strict⟩ (field.1.layout.key field.2) reader d s.unset)

/-- An entry with a list of plain values. -/
theorem readFollows_list {α : Type} {reader : ItemReader α}
    (h : (list α).Mirrors types reader) : (list α).ReadFollows types field reader d := by
  unfold ReadFollows
  simp only [loaded, read]
  cases hitems : d.asItems with
  | error e => exact Follows.failed _ e rfl
  | ok items =>
      simp only []
      rw [faults_elements, List.map_map, ← foldl_push]
      refine Follows.items _ ?_ (nodup_keys_indexed 0 _)
        (fun c hc => ne_field_of_mem_indexed hc) (map_snd_indexed 0 _) _
      intro x _
      simp only [Function.comp_apply, ItemReader.element]
      rw [h .strict x]
      cases hr : tolerantly reader.read x with
      | ok v => exact Or.inl ⟨rfl, fun slot => rfl⟩
      | error e => exact Or.inr ⟨_, fun slot => rfl, Aborts.of_root ⟨.field e⟩ rfl⟩

variable {α : Type} [HasFaults α] {reader : ItemReader α}

/-- An entry with a list of parts. -/
theorem readFollows_parts (h : Flowsheet.Mirrors types reader.read) (hd : d.WellFormed) :
    (parts α).ReadFollows types field reader d := by
  unfold ReadFollows
  simp only [loaded, read]
  cases hitems : d.asItems with
  | error e => exact Follows.failed _ e rfl
  | ok items =>
      rw [Document.eq_sequence_of_asItems hitems, Document.wellFormed_sequence] at hd
      simp only []
      rw [faults_parts reader.part, ← foldl_push fun x => (reader.part x, none)]
      refine Follows.items _ ?_ (nodup_keys_indexed 0 _)
        (fun c hc => ne_field_of_mem_indexed hc) (map_snd_indexed 0 _) _
      intro x hx
      exact h.item (hd x hx) (fun given slot =>
        apply ⟨field.1.layout.entity, .strict⟩ (field.1.layout.key field.2) (.parts α)
          (.supplyOne given reader.fallback) slot)
        (fun a slot => rfl) (fun cause slot => rfl)

/-- An entry with a map of parts. -/
theorem readFollows_namedParts (h : Flowsheet.Mirrors types reader.read) (hd : d.WellFormed) :
    (namedParts α).ReadFollows types field reader d := by
  unfold ReadFollows
  simp only [loaded, read]
  cases hentries : d.asEntries with
  | error e => exact Follows.failed _ e rfl
  | ok entries =>
      rw [Document.eq_mapping_of_asEntries hentries, Document.wellFormed_mapping] at hd
      simp only []
      rw [faults_namedParts reader.part hd.1, ← foldl_insert reader.part]
      refine Follows.items (fun x => HasFaults.faults (reader.part x.2)) ?_
        (nodup_keys_named hd.1 _) (fun c hc => ne_field_of_mem_named hc) ?_ _
      · intro x hx
        exact h.item (hd.2 x hx) (fun given slot =>
          apply ⟨field.1.layout.entity, .strict⟩ (field.1.layout.key field.2) (.namedParts α)
            (.supplyOne x.1 given reader.fallback) slot)
          (fun a slot => rfl) (fun cause slot => rfl)
      · rw [List.map_map]
        rfl

/-- Reading one entry: what it leaves is never taken for a field that is missing, and a strict read
follows. -/
theorem read_follows (s : Shape) {reader : s.Reader} (h : s.Mirrors types reader)
    (hd : d.WellFormed) :
    (∀ name, isGap (.field name) (s.faults (s.loaded reader d)) = false) ∧
      s.ReadFollows types field reader d := by
  cases s with
  | required α | optional α =>
      simp only [ReadFollows, loaded, read]
      cases hr : reader d with
      | ok v => exact ⟨fun name => rfl, Or.inl ⟨rfl, rfl⟩⟩
      | error e =>
          refine ⟨fun name => ?_, Follows.failed _ e rfl⟩
          -- readers of plain values never say that something is missing, so the fault is no gap
          cases e with
          | missing field => exact absurd hr (h d field)
          | mismatch | outOfRange | unknownVariant | invalidIdentifier => rfl
  | requiredPart α =>
      exact Mirrors.single h hd (fun given =>
        apply ⟨field.1.layout.entity, .strict⟩ _ (.requiredPart α) (.supply given none) .unset)
        (fun a => rfl) (fun cause => rfl) rfl
  | optionalPart α =>
      exact Mirrors.single h hd (fun given =>
        apply ⟨field.1.layout.entity, .strict⟩ _ (.optionalPart α)
          (.supply (given.map some) none) .unset)
        (fun a => rfl) (fun cause => rfl) rfl
  | list α => exact ⟨fun name => isGap_merge _ _ _, readFollows_list field h⟩
  | parts α => exact ⟨fun name => isGap_merge _ _ _, readFollows_parts field h hd⟩
  | namedParts α => exact ⟨fun name => isGap_merge _ _ _, readFollows_namedParts field h hd⟩

end Shape

/-! ### One entity -/

section

variable {types : List EntityType} {L : Layout} (o : Owns types L) {trees : L.Field → FaultTree}
  {pre post : List L.Field} {f : L.Field}

/-- What the first field with a faulty entry ends with, the entity ends with. -/
theorem Aborts.field (hfields : L.fields = pre ++ f :: post)
    (hpre : ∀ f' ∈ pre, trees f' = .empty ∨ isGap (L.key f') (trees f') = true)
    (hgap : isGap (L.key f) (trees f) = false) {e : BuildError}
    (h : Aborts ((o.field f).1.parts (o.field f).2) (some (o.field f)) (trees f) e) :
    Aborts types none (merge none (L.fieldTrees trees)) e := by
  obtain ⟨path, fault, owner, hfirst, howner, he⟩ := h
  refine ⟨L.key f :: path, fault, owner, ?_, ?_, he⟩
  · have hkeys := L.nodup_keys_fieldTrees trees
    unfold Layout.fieldTrees at hkeys ⊢
    rw [hfields, List.map_append, List.map_cons] at hkeys ⊢
    refine first?_merge_of_prompt hkeys (fun c hc => ?_) hgap hfirst
    obtain ⟨f', hf', rfl⟩ := List.mem_map.mp hc
    exact hpre f' hf'
  · rw [← howner]
    exact ownerFrom_field (o.findField?_eq f) none path

include o

/-- Where no entry is faulty, the first field that is missing decides. -/
theorem Aborts.gap (hfields : L.fields = pre ++ f :: post)
    (hall : ∀ f, trees f = .empty ∨ isGap (L.key f) (trees f) = true)
    (hpre : ∀ f' ∈ pre, trees f' = .empty) (hf : trees f = .leaf (Fault.missing (L.name f))) :
    Aborts types none (merge none (L.fieldTrees trees))
      (.strict L.entity (L.key f) (.field (.missing (L.name f)))) := by
  refine ⟨[L.key f], Fault.missing (L.name f), o.field f, ?_, ?_, ?_⟩
  · have hkeys := L.nodup_keys_fieldTrees trees
    unfold Layout.fieldTrees at hkeys ⊢
    rw [hfields, List.map_append, List.map_cons, hf] at hkeys ⊢
    refine first?_merge_of_gap hkeys (fun c hc => ?_) (fun c hc => ?_) rfl
    · rcases List.mem_append.mp hc with hmem | hmem
      · obtain ⟨f', -, rfl⟩ := List.mem_map.mp hmem
        exact hall f'
      · rcases List.mem_cons.mp hmem with rfl | hmem
        · exact Or.inr rfl
        · obtain ⟨f', -, rfl⟩ := List.mem_map.mp hmem
          exact hall f'
    · obtain ⟨f', hf', rfl⟩ := List.mem_map.mp hc
      exact hpre f' hf'
  · exact ownerFrom_field (o.findField?_eq f) none []
  · rw [o.entity_eq, Layout.key, Layout.key, o.name_eq]
    rfl

end

namespace Builder

variable {types : List EntityType} {L : Layout} (o : Owns types L) {readers : L.Readers}
  (hreaders : ∀ f, (L.shape f).Mirrors ((o.field f).1.parts (o.field f).2) (readers f))
  {entries : List (String × Document)} (hd : (Document.mapping entries).WellFormed)

include hreaders hd

/-- Reading one field from a mapping. -/
theorem readField_follows (f : L.Field) :
    (∀ name, isGap (.field name) ((L.shape f).faults (loadedSlot readers entries f)) = false) ∧
    Follows ((o.field f).1.parts (o.field f).2) (some (o.field f))
      ((L.shape f).faults (loadedSlot readers entries f)) (loadedSlot readers entries f)
      (match Document.present? (L.name f) entries with
        | none => .ok (L.shape f).unset
        | some d => (L.shape f).read ⟨L.entity, .strict⟩ (L.key f) (readers f) d
            (L.shape f).unset) := by
  unfold loadedSlot
  cases hpresent : Document.present? (L.name f) entries with
  | none =>
      simp only [Shape.faults_unset]
      exact ⟨fun name => rfl, Or.inl ⟨rfl, rfl⟩⟩
  | some d =>
      have hmem := Document.mem_of_present? hpresent
      have hfollows := Shape.read_follows (o.field f) (L.shape f) (hreaders f)
        ((Document.wellFormed_mapping.mp hd).2 _ hmem)
      rw [Shape.ReadFollows, o.entity_eq, Layout.key, o.name_eq] at hfollows
      exact hfollows

/-- The first faulty entry ends a strict read of the fields. -/
theorem readFields_strict_error {pre post : List L.Field} {f : L.Field}
    (hfields : L.fields = pre ++ f :: post)
    (hpre : ∀ f' ∈ pre, (L.shape f').faults (loadedSlot readers entries f') = .empty)
    (hf : (L.shape f).faults (loadedSlot readers entries f) ≠ .empty) :
    ∃ e, (new L .strict).readFields readers entries = .error e ∧
      Aborts ((o.field f).1.parts (o.field f).2) (some (o.field f))
        ((L.shape f).faults (loadedSlot readers entries f)) e := by
  obtain ⟨-, ⟨hempty, -⟩ | ⟨e, hrun, habort⟩⟩ := readField_follows o hreaders hd f
  · exact absurd hempty hf
  · refine ⟨e, ?_, habort⟩
    rw [readFields_eq, hfields]
    refine foldlM_updateField_error (hfields ▸ L.nodup_fields)
      (loadedSlot readers entries) (fun f' hf' => ?_) hrun
    obtain ⟨-, ⟨-, hrun'⟩ | ⟨e', -, habort'⟩⟩ := readField_follows o hreaders hd f'
    · exact hrun'
    · exact absurd (hpre f' hf') habort'.ne_empty

/-- Without a faulty entry a strict read of the fields does what a tolerant one does. -/
theorem readFields_strict_ok
    (h : ∀ f, (L.shape f).faults (loadedSlot readers entries f) = .empty) :
    (new L .strict).readFields readers entries = .ok (loaded .strict readers entries) := by
  rw [readFields_eq, foldlM_updateField_fields (loadedSlot readers entries) fun f => ?_]
  · rfl
  · obtain ⟨-, ⟨-, hrun⟩ | ⟨e, -, habort⟩⟩ := readField_follows o hreaders hd f
    · exact hrun
    · exact absurd (h f) habort.ne_empty

/-- Reading and finishing an entity: failed supplies end a strict build before missing fields do. -/
theorem read_follows :
    Follows types none (Layout.loadedRecord readers entries).faults
      (Layout.loadedRecord readers entries)
      (((new L .strict).readFields readers entries).bind build) := by
  let slot := loadedSlot readers entries
  let tree : L.Field → FaultTree :=
    fun f => (L.shape f).faults ((L.shape f).settled (L.key f) (slot f))
  have hgiven : ∀ f, (L.shape f).isMissing (slot f) = false →
      tree f = (L.shape f).faults (slot f) :=
    fun f h => congrArg (L.shape f).faults (Shape.settled_of_not_isMissing _ h)
  have hmissing : ∀ f, (L.shape f).isMissing (slot f) = true →
      tree f = .leaf (Fault.missing (L.name f)) :=
    fun f h => Shape.faults_settled_of_isMissing _ h
  have hclean : ∀ f, (L.shape f).faults (slot f) = .empty →
      tree f = .empty ∨ isGap (L.key f) (tree f) = true := by
    intro f h
    cases hm : (L.shape f).isMissing (slot f) with
    | false => exact Or.inl ((hgiven f hm).trans h)
    | true => exact Or.inr (by rw [hmissing f hm]; rfl)
  show Follows types none (merge none (L.fieldTrees tree)) _ _
  rcases exists_first_faulty (fun f => (L.shape f).faults (slot f)) L.fields with
    hempty | ⟨pre, f, post, hfields, hpre, hf⟩
  · have hall : ∀ f, (L.shape f).faults (slot f) = .empty := fun f => hempty f (L.mem_fields f)
    rw [readFields_strict_ok o hreaders hd hall]
    show Follows types none _ _ (loaded .strict readers entries).build
    rcases exists_first (fun f => (L.shape f).isMissing (slot f)) L.fields with
      hnone | ⟨pre, f, post, hfields, hpre, hf⟩
    · have hgivenAll : ∀ f, (L.shape f).isMissing (slot f) = false :=
        fun f => hnone f (L.mem_fields f)
      refine Or.inl ⟨?_, build_of_not_isMissing hgivenAll⟩
      rw [merge_eq_empty_iff (L.nodup_keys_fieldTrees tree)]
      refine ⟨rfl, fun c hc => ?_⟩
      obtain ⟨f, -, rfl⟩ := List.mem_map.mp hc
      exact (hgiven f (hgivenAll f)).trans (hall f)
    · refine Or.inr ⟨_, build_strict_of_isMissing rfl hfields hpre hf, ?_⟩
      exact Aborts.gap o hfields (fun f' => hclean f' (hall f'))
        (fun f' hf' => (hgiven f' (hpre f' hf')).trans (hall f')) (hmissing f hf)
  · have hgivenf : (L.shape f).isMissing (slot f) = false := by
      refine Bool.eq_false_iff.mpr fun hm => hf ?_
      rw [show slot f = (L.shape f).unset from loadedSlot_of_isMissing hm]
      exact Shape.faults_unset _
    obtain ⟨e, hrun, habort⟩ := readFields_strict_error o hreaders hd hfields hpre hf
    refine Or.inr ⟨e, by rw [hrun]; rfl, ?_⟩
    rw [← hgiven f hgivenf] at habort
    refine Aborts.field o hfields (fun f' hf' => hclean f' (hpre f' hf')) ?_ habort
    rw [hgiven f hgivenf]
    exact (readField_follows o hreaders hd f).1 (L.name f)

end Builder

namespace Entity

variable {E : Type} [Entity E] {types : List EntityType} (o : Owns types (layout E))
  {readers : (layout E).Readers}
  (hreaders : ∀ f, ((layout E).shape f).Mirrors ((o.field f).1.parts (o.field f).2) (readers f))

include hreaders

/-- A strict run over the fields of an entity follows the tolerant one: it ends at the first fault
of a field that was read, or else at the first required field that is missing. -/
theorem readEntries_follows {entries : List (String × Document)}
    (hd : (Document.mapping entries).WellFormed) :
    Follows types none (Layout.loadedRecord readers entries).faults
      (ofRecord (Layout.loadedRecord readers entries) : E)
      (readEntries readers .strict entries) := by
  have hrun : (readEntries readers .strict entries : Except BuildError E) =
      (((Builder.new (layout E) .strict).readFields readers entries).bind Builder.build).map
        ofRecord := by
    unfold readEntries
    cases (Builder.new (layout E) .strict).readFields readers entries <;> rfl
  rw [hrun]
  exact (Builder.read_follows o hreaders hd).map ofRecord

/-- Strict reads of an entity follow its tolerant ones. -/
theorem read_mirrors : Mirrors types (read readers : BuildMode → Document → Reading E) := by
  have htolerate : readers.Tolerate := fun f => (hreaders f).tolerates
  refine ⟨read_tolerates htolerate, fun d hd => ?_⟩
  rw [tolerantly_read htolerate, read]
  cases hentries : d.asEntries with
  | error e => rfl
  | ok entries =>
      rw [Document.eq_mapping_of_asEntries hentries] at hd
      show (∀ fault, HasFaults.faults (ofRecord (Layout.loadedRecord readers entries) : E) ≠ _) ∧
        Follows types none
          (HasFaults.faults (ofRecord (Layout.loadedRecord readers entries) : E)) _ _
      rw [faults_ofRecord]
      exact ⟨fun fault => merge_ne_leaf fault, (readEntries_follows o hreaders hd).map Except.ok⟩

end Entity

/-! ### Single values -/

namespace Document

/-- A number that cannot be read is not reported as missing. -/
theorem asNumber_ne_missing {α : Type} (narrow : Int64 → Option α) (target : String)
    (d : Document) (name : String) : asNumber narrow target d ≠ .error (.missing name) := by
  intro h
  cases d with
  | integer value =>
      rw [asNumber] at h
      split at h <;> cases h
  | null | bool | float | string | sequence | mapping => cases h

/-- Nor is a text. -/
theorem asString_ne_missing (d : Document) (name : String) :
    d.asString ≠ .error (.missing name) := by
  intro h
  cases d <;> cases h

/-- Nor is a truth value. -/
theorem asBool_ne_missing (d : Document) (name : String) :
    d.asBool ≠ .error (.missing name) := by
  intro h
  cases d <;> cases h

/-- Nor is a port type. -/
theorem asPortType_ne_missing (d : Document) (name : String) :
    d.asPortType ≠ .error (.missing name) := by
  intro h
  cases d with
  | string text =>
      have htext : PortType.ofText text = .error (.missing name) := h
      unfold PortType.ofText at htext
      split at htext <;> cases htext
  | null | bool | integer | float | sequence | mapping => cases h

/-- Nor is a kind of node. -/
theorem asNodeKind_ne_missing (d : Document) (name : String) :
    d.asNodeKind ≠ .error (.missing name) := by
  intro h
  cases d with
  | string text =>
      have htext : NodeKind.ofText text = .error (.missing name) := h
      unfold NodeKind.ofText at htext
      split at htext
      · cases htext
      · split at htext
        · cases htext
        · split at htext <;> cases htext
  | null | bool | integer | float | sequence | mapping => cases h

/-- Nor is a plain setting. -/
theorem asScalar_ne_missing (d : Document) (name : String) :
    d.asScalar ≠ .error (.missing name) := by
  intro h
  cases d <;> cases h

end Document

/-! ### Configurations -/

namespace Config

/-- Reading either kind of configuration, where the reader of children is followed. -/
theorem readEntries_mirrored {child : BuildMode → Document → Reading Config}
    (hchild : Mirrors [.configMap, .configValue] child) {entries : List (String × Document)}
    (hd : (Document.mapping entries).WellFormed) :
    Mirrored [.configMap, .configValue] (loadedEntries child entries)
      (readEntries child .strict entries) := by
  unfold loadedEntries readEntries
  by_cases hmap : Assoc.contains (ConfigMap.layout.name .children) entries
  · rw [if_pos hmap, if_pos hmap]
    refine ⟨fun fault => merge_ne_leaf fault, ?_⟩
    refine (Entity.readEntries_follows (E := ConfigMap) Owns.configMap (fun f => ?_) hd).map
      fun m => Except.ok m.toConfig
    cases f
    exact hchild
  · rw [if_neg hmap, if_neg hmap]
    by_cases hvalue : Assoc.contains (ConfigValue.layout.name .value) entries
    · rw [if_pos hvalue, if_pos hvalue]
      refine ⟨fun fault => merge_ne_leaf fault, ?_⟩
      refine (Entity.readEntries_follows (E := ConfigValue) Owns.configValue (fun f => ?_) hd).map
        fun v => Except.ok v.toConfig
      cases f
      exact Document.asScalar_ne_missing
    · rw [if_neg hvalue, if_neg hvalue]
      rfl

/-- Strict reads of configurations up to some depth follow the tolerant ones, by induction on the
depth. -/
theorem readTo_mirrors (depth : Nat) : Mirrors [.configMap, .configValue] (readTo depth) := by
  -- with no depth left both modes report the same mismatch
  induction depth with
  | zero => exact ⟨readTo_tolerates 0, fun d _ => rfl⟩
  | succ depth ih =>
      refine ⟨readTo_tolerates (depth + 1), fun d hd => ?_⟩
      unfold tolerantly
      rw [readTo, readTo]
      cases hentries : d.asEntries with
      | error e => rfl
      | ok entries =>
          rw [Document.eq_mapping_of_asEntries hentries] at hd
          simp only []
          rw [readEntries_tolerant ih.1]
          exact readEntries_mirrored ih hd

/-- So do those of any configuration. -/
theorem read_mirrors : Mirrors [.configMap, .configValue] read :=
  ⟨read_tolerates, fun d hd => (readTo_mirrors d.depth).2 d hd⟩

end Config

/-! ### Workflows -/

/-- Strict reads of bounds follow the tolerant ones. -/
theorem Bounds.read_mirrors : Mirrors [.bounds] Bounds.read :=
  Entity.read_mirrors (E := Bounds) (EntityType.bounds.owns) fun f => by
    cases f <;> exact Document.asNumber_ne_missing _ _

/-- So do those of ports. -/
theorem Port.read_mirrors : Mirrors [.port] Port.reader.read :=
  Entity.read_mirrors (E := Port) (EntityType.port.owns) fun f => by
    cases f with
    | index => exact Document.asNumber_ne_missing _ _
    | portType => exact Document.asPortType_ne_missing
    | name => exact Document.asString_ne_missing

/-- So do those of connections. -/
theorem Connection.read_mirrors : Mirrors [.connection] Connection.reader.read :=
  Entity.read_mirrors (E := Connection) (EntityType.connection.owns) fun f => by
    cases f with
    | sourceId | sourcePort | destId | destPort => exact Document.asNumber_ne_missing _ _
    | deletable => exact Document.asBool_ne_missing
    | bendPoints => exact fun mode d => rfl

/-- So do those of annotations, which have bounds. -/
theorem Annotation.read_mirrors : Mirrors [EntityType.annotation] Annotation.reader.read :=
  Entity.read_mirrors (E := Annotation) (EntityType.annotation.owns) fun f => by
    cases f with
    | text => exact Document.asString_ne_missing
    | bounds => exact Bounds.read_mirrors
    | borderSize => exact Document.asNumber_ne_missing _ _

/-- So do those of nodes, which have bounds, ports and settings. -/
theorem Node.read_mirrors : Mirrors [.node] Node.reader.read :=
  Entity.read_mirrors (E := Node) (EntityType.node.owns) fun f => by
    cases f with
    | id => exact Document.asNumber_ne_missing _ _
    | name => exact Document.asString_ne_missing
    | kind => exact Document.asNodeKind_ne_missing
    | bounds => exact Bounds.read_mirrors
    | inPorts | outPorts => exact Port.read_mirrors
    | modelSettings => exact Config.read_mirrors

/-- A strict read of a workflow follows the tolerant one. -/
theorem Workflow.read_follows {entries : List (String × Document)}
    (hd : (Document.mapping entries).WellFormed) {w : Workflow}
    (hw : Workflow.read .tolerant entries = .ok w) :
    Follows [.workflow] none w.faults w (Workflow.read .strict entries) := by
  rw [Workflow.read_tolerant] at hw
  cases hw
  exact Entity.readEntries_follows (E := Workflow) (EntityType.workflow.owns)
    (fun f => by
      cases f with
      | name => exact Document.asString_ne_missing
      | nodes => exact Node.read_mirrors
      | connections => exact Connection.read_mirrors
      | annotations => exact Annotation.read_mirrors) hd

/-! ### Loading -/

/-- Where nothing is reported no fault is met. -/
theorem FaultTree.first?_of_diagnostics_eq_nil {t : FaultTree} {source : String}
    (h : t.diagnostics source = []) : t.first? = none := by
  have hfaults : t.faults = [] := List.map_eq_nil_iff.mp h
  exact first?_eq_none_iff.mpr hfaults

namespace LoadOptions

/-- A strict load follows the tolerant load of the same mapping. -/
theorem loadDocument_follows (source : String) {entries : List (String × Document)}
    (h : (Document.mapping entries).WellFormed) {l : Loaded}
    (hl : loadDocument ⟨source, .tolerant⟩ (.mapping entries) = .ok l) :
    Follows [.workflow] none l.workflow.faults l
      (loadDocument ⟨source, .strict⟩ (.mapping entries)) := by
  obtain ⟨w, hw, hload⟩ := loadDocument_tolerant source entries
  rw [hload] at hl
  cases hl
  rw [loadDocument_mapping]
  exact (Workflow.read_follows h hw).map fun w : Workflow =>
    (⟨w, w.faults.diagnostics source⟩ : Loaded)

/-- A tolerant load reports nothing just if it leaves an empty tree. -/
theorem diagnostics_eq_nil_iff (source : String) {entries : List (String × Document)}
    (h : (Document.mapping entries).WellFormed) {l : Loaded}
    (hl : loadDocument ⟨source, .tolerant⟩ (.mapping entries) = .ok l) :
    l.diagnostics = [] ↔ l.workflow.faults = .empty := by
  obtain ⟨w, -, hload⟩ := loadDocument_tolerant source entries
  obtain rfl := Except.ok.inj (hload.symm.trans hl)
  constructor
  · intro hnil
    rcases loadDocument_follows source h hl with ⟨hempty, -⟩ | ⟨e, -, path, fault, field, hfirst, -⟩
    · exact hempty
    · rw [first?_of_diagnostics_eq_nil hnil] at hfirst
      cases hfirst
  · intro hempty
    show w.faults.diagnostics source = []
    rw [show w.faults = .empty from hempty]
    rfl

/-- A strict load of a mapping succeeds if and only if a tolerant load of it reports nothing. Then
both give the same, with an empty tree; otherwise the strict load fails as a strict build does. -/
theorem strict_load_iff_no_diagnostics (source : String) {entries : List (String × Document)}
    (h : (Document.mapping entries).WellFormed) :
    ∃ l, loadDocument ⟨source, .tolerant⟩ (.mapping entries) = .ok l ∧
      ((∃ s, loadDocument ⟨source, .strict⟩ (.mapping entries) = .ok s) ↔ l.diagnostics = []) ∧
      (∀ s, loadDocument ⟨source, .strict⟩ (.mapping entries) = .ok s →
        s = l ∧ l.workflow.faults = .empty) ∧
      (∀ e, loadDocument ⟨source, .strict⟩ (.mapping entries) = .error e →
        ∃ entity key cause, e = .strict entity key cause) := by
  obtain ⟨w, -, hload⟩ := loadDocument_tolerant source entries
  refine ⟨_, hload, ?_⟩
  rcases loadDocument_follows source h hload with ⟨hempty, hrun⟩ | ⟨e, hrun, habort⟩
  · have hnil : w.faults.diagnostics source = [] := by
      rw [show w.faults = .empty from hempty]
      rfl
    rw [hrun]
    refine ⟨⟨fun _ => hnil, fun _ => ⟨_, rfl⟩⟩, ?_, ?_⟩
    · intro s hs
      exact ⟨(Except.ok.inj hs).symm, hempty⟩
    · intro e he
      cases he
  · obtain ⟨path, fault, field, hfirst, -, rfl⟩ := habort
    rw [hrun]
    refine ⟨⟨?_, ?_⟩, ?_, ?_⟩
    · rintro ⟨s, hs⟩
      cases hs
    · intro hnil
      rw [first?_of_diagnostics_eq_nil hnil] at hfirst
      cases hfirst
    · intro s hs
      cases hs
    · intro e he
      exact ⟨_, _, _, (Except.error.inj he).symm⟩

/-- A workflow with a name and with one node that has all it needs. -/
def plainFlow : List (String × Document) :=
  [("name", .string "Flow"), ("nodes", .mapping [("n", .mapping
    [("id", .integer 1), ("name", .string "Reader"), ("kind", .string "COMPONENT")])])]

/-- No mapping in this workflow has a key twice. -/
theorem wellFormed_plainFlow : (Document.mapping plainFlow).WellFormed := by
  simp [plainFlow, Document.WellFormed, Document.WellFormedEntries, Assoc.keys]

/-- A fault three levels down is enough for a strict load to fail; where there is none, both loads
give the same. -/
theorem strict_load_iff_no_diagnostics_nestedFault :
    ((Document.mapping nestedFault).WellFormed ∧
      ∃ l, loadDocument ⟨"w", .tolerant⟩ (.mapping nestedFault) = .ok l ∧ l.diagnostics ≠ [] ∧
        ¬ ∃ s, loadDocument ⟨"w", .strict⟩ (.mapping nestedFault) = .ok s) ∧
    ((Document.mapping plainFlow).WellFormed ∧
      ∃ l, loadDocument ⟨"w", .tolerant⟩ (.mapping plainFlow) = .ok l ∧ l.diagnostics = [] ∧
        Assoc.keys l.workflow.nodes = ["n"] ∧ l.workflow.faults = .empty ∧
        loadDocument ⟨"w", .strict⟩ (.mapping plainFlow) = .ok l) := by
  refine ⟨⟨wellFormed_nestedFault, ?_⟩, wellFormed_plainFlow, ?_⟩
  · obtain ⟨l, hl, hiff, -⟩ := strict_load_iff_no_diagnostics "w" wellFormed_nestedFault
    have hne : l.diagnostics ≠ [] := by
      obtain rfl := Except.ok.inj hl
      exact List.cons_ne_nil _ _
    exact ⟨l, hl, hne, fun hs => hne (hiff.mp hs)⟩
  · obtain ⟨l, hl, hiff, hsame, -⟩ := strict_load_iff_no_diagnostics "w" wellFormed_plainFlow
    have hnone : l.diagnostics = [] ∧ Assoc.keys l.workflow.nodes = ["n"] := by
      obtain rfl := Except.ok.inj hl
      exact ⟨rfl, rfl⟩
    obtain ⟨s, hs⟩ := hiff.mpr hnone.1
    obtain ⟨rfl, hempty⟩ := hsame s hs
    exact ⟨s, hl, hnone.1, hnone.2, hempty, hs⟩

/-- If a tolerant load of a mapping leaves a fault, a strict load fails with the first one in the
order of `FaultTree.visit`, for the field that the fault's path names last, in the name of the type
of entity that has the field. -/
theorem strict_load_fails_at_first_fault (source : String) {entries : List (String × Document)}
    (h : (Document.mapping entries).WellFormed) {l : Loaded}
    (hl : loadDocument ⟨source, .tolerant⟩ (.mapping entries) = .ok l)
    (hfaults : l.workflow.faults ≠ .empty) :
    ∃ path fault t f, l.workflow.faults.visit.head? = some (path, fault) ∧
      FaultPath.owner? path = some ⟨t, f⟩ ∧
      FaultPath.lastField? path = some (t.layout.name f) ∧
      loadDocument ⟨source, .strict⟩ (.mapping entries) =
        .error (.strict t.layout.entity (.field (t.layout.name f)) fault.cause) := by
  rcases loadDocument_follows source h hl with ⟨hempty, -⟩ | ⟨e, hrun, habort⟩
  · exact absurd hempty hfaults
  · obtain ⟨path, fault, ⟨t, f⟩, hfirst, howner, rfl⟩ := habort
    exact ⟨path, fault, t, f, hfirst, howner, FaultPath.lastField?_of_owner? howner, hrun⟩

/-- The node lacks fields of its own, but its settings are read before: a strict load fails there,
in the name of a plain setting. -/
theorem strict_load_fails_at_first_fault_nestedFault :
    ∃ l, loadDocument ⟨"w", .tolerant⟩ (.mapping nestedFault) = .ok l ∧
      l.workflow.faults ≠ .empty ∧
      l.workflow.faults.visit.head? =
        some (nestedFaultPath, ⟨.field (.mismatch "scalar" "sequence")⟩) ∧
      FaultPath.owner? nestedFaultPath = some ⟨.configValue, .value⟩ ∧
      FaultPath.lastField? nestedFaultPath = some "value" ∧
      loadDocument ⟨"w", .strict⟩ (.mapping nestedFault) =
        .error (.strict "ConfigValueDef" (.field "value")
          (.field (.mismatch "scalar" "sequence"))) := by
  obtain ⟨w, -, hload⟩ := loadDocument_tolerant "w" nestedFault
  have hvisit : w.faults.visit.head? =
      some (nestedFaultPath, ⟨.field (.mismatch "scalar" "sequence")⟩) := by
    obtain rfl := congrArg Loaded.workflow (Except.ok.inj hload)
    rfl
  have hfaults : w.faults ≠ .empty := by
    obtain rfl := congrArg Loaded.workflow (Except.ok.inj hload)
    exact hasFaults_iff.mp rfl
  obtain ⟨path, fault, t, f, hfirst, howner, hlast, hstrict⟩ :=
    strict_load_fails_at_first_fault "w" wellFormed_nestedFault hload hfaults
  obtain ⟨rfl, rfl⟩ := Prod.mk.inj (Option.some.inj (hfirst.symm.trans hvisit))
  have hvalue : FaultPath.owner? nestedFaultPath = some ⟨.configValue, .value⟩ := rfl
  cases Option.some.inj (howner.symm.trans hvalue)
  exact ⟨_, hload, hfaults, hvisit, howner, hlast, hstrict⟩

end LoadOptions

end Flowsheet
