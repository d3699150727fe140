import Flowsheet.Reading.Entity
import Flowsheet.Proofs.Assoc

/-!
# Documents below documents

`WellFormed` and `depth` of a sequence or mapping in terms of its members, the documents that the
readers of sequences and mappings accept, and the entries that count as present.
-/

namespace Flowsheet.Document

/-- Well-formedness of items is that of each item. -/
theorem wellFormedItems_iff {items : List Document} :
    WellFormedItems items ↔ ∀ d ∈ items, d.WellFormed := by
  induction items with
  | nil => simp [WellFormedItems]
  | cons d rest ih => simp [WellFormedItems, ih]

/-- Well-formedness of entries is that of each value. -/
theorem wellFormedEntries_iff {entries : List (String × Document)} :
    WellFormedEntries entries ↔ ∀ e ∈ entries, e.2.WellFormed := by
  induction entries with
  | nil => simp [WellFormedEntries]
  | cons e rest ih => simp [WellFormedEntries, ih]

/-- A sequence is well-formed just if its items are. -/
theorem wellFormed_sequence {items : List Document} :
    (sequence items).WellFormed ↔ ∀ d ∈ items, d.WellFormed := wellFormedItems_iff

/-- A mapping is well-formed just if no key comes twice and its values are well-formed. -/
theorem wellFormed_mapping {entries : List (String × Document)} :
    (mapping entries).WellFormed ↔
      (Assoc.keys entries).Nodup ∧ ∀ e ∈ entries, e.2.WellFormed :=
  and_congr_right' wellFormedEntries_iff

/-- A member of a mapping is less deep than the mapping. -/
theorem depth_le_depthEntries {entries : List (String × Document)} {e : String × Document}
    (h : e ∈ entries) : e.2.depth ≤ depthEntries entries := by
  induction entries with
  | nil => cases h
  | cons e' rest ih =>
      rw [depthEntries]
      rcases List.mem_cons.mp h with rfl | hrest
      · exact Nat.le_max_left _ _
      · exact Nat.le_trans (ih hrest) (Nat.le_max_right _ _)

/-- An item of a sequence is less deep than the sequence. -/
theorem depth_le_depthItems {items : List Document} {d : Document} (h : d ∈ items) :
    d.depth ≤ depthItems items := by
  induction items with
  | nil => cases h
  | cons d' rest ih =>
      rw [depthItems]
      rcases List.mem_cons.mp h with rfl | hrest
      · exact Nat.le_max_left _ _
      · exact Nat.le_trans (ih hrest) (Nat.le_max_right _ _)

/-! ### Shapes -/

/-- A mapping is accepted where a mapping has to stand. -/
@[simp] theorem asEntries_mapping (entries : List (String × Document)) :
    (mapping entries).asEntries = .ok entries := rfl

/-- A sequence is accepted where a sequence has to stand. -/
@[simp] theorem asItems_sequence (items : List Document) :
    (sequence items).asItems = .ok items := rfl

/-- Only mappings are accepted where a mapping has to stand. -/
theorem eq_mapping_of_asEntries {d : Document} {entries : List (String × Document)}
    (h : d.asEntries = .ok entries) : d = mapping entries := by
  cases d with
  | mapping => exact congrArg mapping (Except.ok.inj h)
  | null | bool | integer | float | string | sequence => cases h

/-- Only sequences are accepted where a sequence has to stand. -/
theorem eq_sequence_of_asItems {d : Document} {items : List Document}
    (h : d.asItems = .ok items) : d = sequence items := by
  cases d with
  | sequence => exact congrArg sequence (Except.ok.inj h)
  | null | bool | integer | float | string | mapping => cases h

/-- What is not accepted as a mapping is reported with the shape it has. -/
theorem asEntries_eq_error {d : Document} {e : FieldError} (h : d.asEntries = .error e) :
    e = d.mismatch "mapping" := by
  cases d <;> cases h <;> rfl

/-! ### Entries that are not null -/

/-- What is present under a name is one of the entries. -/
theorem mem_of_present? {name : String} {entries : List (String × Document)} {d : Document}
    (h : present? name entries = some d) : (name, d) ∈ entries :=
  Assoc.mem_of_get?_eq_some (Option.filter_eq_some_iff.mp h).1

/-- The test for null tells null from everything else. -/
theorem isNull_iff {d : Document} : d.isNull = true ↔ d = null := by
  cases d <;> simp [isNull]

/-- Nothing is present under a name just if there is no entry, or a null. -/
theorem present?_eq_none_iff {name : String} {entries : List (String × Document)} :
    present? name entries = none ↔
      Assoc.get? name entries = none ∨ Assoc.get? name entries = some null := by
  unfold present?
  cases Assoc.get? name entries with
  | none => simp
  | some d => simp [Option.filter_some, isNull_iff]

end Flowsheet.Document
