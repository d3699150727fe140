import Flowsheet.Proofs.Build.Run
import Flowsheet.Proofs.PortType
import Flowsheet.Proofs.Reading.Grammar
import Flowsheet.Reading.Field

/-!
# Which documents single values are read from

One statement for each reader of a single value: it gives a value just if the document is of the
kind that the layout names (`asInt32_iff` and so on). A text is a port type if no segment has a
problem (`problem?_eq_none_iff`), and a point is read from a pair or from a mapping
(`asCoordinate_iff`).
-/

namespace Flowsheet.Document

/-! ### Numbers and texts -/

/-- A number is read just if the document is an integer that fits, and then it is that integer,
narrowed. -/
theorem asNumber_eq_ok_iff {α : Type} {narrow : Int64 → Option α} {target : String} {d : Document}
    {v : α} : d.asNumber narrow target = .ok v ↔ ∃ n, d = integer n ∧ narrow n = some v := by
  cases d with
  | integer n =>
      rw [asNumber]
      cases hnarrow : narrow n with
      | none => simp [hnarrow]
      | some w => simp [hnarrow]
  | null | bool _ | float _ | string _ | sequence _ | mapping _ =>
      constructor
      · intro h
        cases h
      · rintro ⟨n, hn, -⟩
        cases hn

/-- Some number is read just if the document is an integer that fits. -/
theorem asNumber_iff {α : Type} {narrow : Int64 → Option α} {target : String} {d : Document} :
    (∃ v, d.asNumber narrow target = .ok v) ↔ ∃ n v, d = integer n ∧ narrow n = some v := by
  simp only [asNumber_eq_ok_iff]
  exact exists_comm

/-- Signed numbers are read from the integers between the two bounds of 32 bits. -/
theorem asInt32_iff (d : Document) : (∃ v, d.asInt32 = .ok v) ↔ d.IsInt32 := by
  unfold asInt32
  rw [asNumber_iff]
  constructor
  · rintro ⟨n, v, rfl, hv⟩
    unfold narrowSigned at hv
    split at hv
    · assumption
    · cases hv
  · intro h
    cases d with
    | integer n => exact ⟨n, _, rfl, if_pos h⟩
    | null | bool _ | float _ | string _ | sequence _ | mapping _ => exact h.elim

/-- Unsigned numbers are read from the integers between zero and the bound of 32 bits. -/
theorem asUInt32_iff (d : Document) : (∃ v, d.asUInt32 = .ok v) ↔ d.IsUInt32 := by
  have hsize : ∀ n : Int, n < (UInt32.size : Int) ↔ n ≤ 4294967295 := by
    intro n
    unfold UInt32.size
    omega
  unfold asUInt32
  rw [asNumber_iff]
  constructor
  · rintro ⟨n, v, rfl, hv⟩
    unfold narrowUnsigned at hv
    split at hv
    · rename_i hrange
      exact ⟨hrange.1, (hsize _).mp hrange.2⟩
    · cases hv
  · intro h
    cases d with
    | integer n => exact ⟨n, _, rfl, if_pos ⟨h.1, (hsize _).mpr h.2⟩⟩
    | null | bool _ | float _ | string _ | sequence _ | mapping _ => exact h.elim

/-- Truth values are read from truth values: no text and no number counts as one. -/
theorem asBool_iff (d : Document) : (∃ v, d.asBool = .ok v) ↔ d.IsBool := by
  cases d <;> simp [asBool, IsBool]

/-- Texts are read from texts and from nothing else. -/
theorem asString_iff (d : Document) : (∃ v, d.asString = .ok v) ↔ d.IsString := by
  cases d <;> simp [asString, IsString]

/-- Plain settings are read from all that is no null, no sequence and no mapping. -/
theorem asScalar_iff (d : Document) : (∃ v, d.asScalar = .ok v) ↔ d.IsScalar := by
  cases d <;> simp [asScalar, IsScalar]

/-! ### Port types and kinds of nodes -/

/-- A segment has no problem if it has the right characters and is no reserved word. -/
theorem segmentProblem?_eq_none_iff (segment : List Char) :
    PortType.segmentProblem? segment = none ↔
      PortType.matchesPattern segment = true ∧
        String.ofList segment ∉ PortType.reservedWords := by
  have hproblem := PortType.segmentProblem?_toList_eq_none_iff (String.ofList segment)
  have hpattern := PortType.matchesPattern_iff (String.ofList segment)
  rw [String.toList_ofList] at hproblem hpattern
  rw [hproblem, hpattern]
  exact ⟨fun h => ⟨h.isWord, h.not_reserved⟩, fun h => ⟨h.1, h.2⟩⟩

/-- A text has no problem as a port type just if each of its segments is a word and is not
reserved. -/
theorem problem?_eq_none_iff (text : String) :
    PortType.problem? text = none ↔ ∀ segment ∈ PortType.segments text,
      PortType.matchesPattern segment = true ∧
        String.ofList segment ∉ PortType.reservedWords := by
  rw [PortType.problem?_eq_none_iff_isId, PortType.isId_iff, PortType.segments_eq_map_toList,
    List.forall_mem_map]
  refine forall₂_congr fun part _ => ?_
  rw [← segmentProblem?_eq_none_iff, PortType.segmentProblem?_toList_eq_none_iff]

/-- Port types are read from texts of such segments. -/
theorem asPortType_iff (d : Document) : (∃ v, d.asPortType = .ok v) ↔ d.IsPortType := by
  cases d with
  | string text =>
      show (∃ v, PortType.ofText text = .ok v) ↔ _
      rw [IsPortType, ← problem?_eq_none_iff]
      constructor
      · rintro ⟨v, hv⟩
        rw [← (PortType.ofText_eq_ok_iff text v).mp hv]
        exact v.valid
      · intro h
        exact ⟨⟨text, h⟩, (PortType.ofText_eq_ok_iff text _).mpr rfl⟩
  | null | bool _ | integer _ | float _ | sequence _ | mapping _ =>
      constructor
      · rintro ⟨v, hv⟩
        cases hv
      · exact False.elim

/-- Kinds of nodes are read from the texts of their three names. -/
theorem asNodeKind_iff (d : Document) : (∃ v, d.asNodeKind = .ok v) ↔ d.IsNodeKind := by
  constructor
  · rintro ⟨v, hv⟩
    cases d with
    | string text =>
        have hkind : NodeKind.ofText text = .ok v := hv
        by_cases hnative : text = "NATIVENODE"
        · exact Or.inl (congrArg string hnative)
        by_cases hcomponent : text = "COMPONENT"
        · exact Or.inr (Or.inl (congrArg string hcomponent))
        by_cases hmetanode : text = "METANODE"
        · exact Or.inr (Or.inr (congrArg string hmetanode))
        rw [NodeKind.ofText, if_neg hnative, if_neg hcomponent, if_neg hmetanode] at hkind
        cases hkind
    | null | bool _ | integer _ | float _ | sequence _ | mapping _ => cases hv
  · rintro (rfl | rfl | rfl)
    · exact ⟨.native, NodeKind.ofText_text .native⟩
    · exact ⟨.component, NodeKind.ofText_text .component⟩
    · exact ⟨.metanode, NodeKind.ofText_text .metanode⟩

/-! ### Points -/

/-- Two documents are read as a point just if both are signed numbers. -/
theorem pair_iff (x y : Document) : (∃ v, pair x y = .ok v) ↔ x.IsInt32 ∧ y.IsInt32 := by
  rw [← asInt32_iff, ← asInt32_iff]
  constructor
  · rintro ⟨v, hv⟩
    obtain ⟨a, ha, hrest⟩ := exists_of_bind_eq_ok hv
    obtain ⟨b, hb, -⟩ := exists_of_bind_eq_ok hrest
    exact ⟨⟨a, ha⟩, ⟨b, hb⟩⟩
  · rintro ⟨⟨a, ha⟩, ⟨b, hb⟩⟩
    refine ⟨⟨a, b⟩, ?_⟩
    unfold pair
    rw [ha, hb]
    rfl

/-- The lookup of a coordinate succeeds with the entry of that name, which may be null. -/
theorem entry_eq_ok_iff {name : String} {entries : List (String × Document)} {d : Document} :
    entry name entries = .ok d ↔ Assoc.get? name entries = some d := by
  unfold entry
  cases Assoc.get? name entries <;> simp

/-- The lookup of a coordinate that a mapping does not have says which one is missing. -/
theorem entry_of_get?_eq_none {name : String} {entries : List (String × Document)}
    (h : Assoc.get? name entries = none) : entry name entries = .error (.missing name) := by
  rw [entry, h]

/-- From a mapping both numbers are looked up before either is read. -/
theorem asCoordinate_mapping (es : List (String × Document)) :
    (mapping es).asCoordinate =
      (entry "x" es).bind fun x => (entry "y" es).bind fun y => pair x y := rfl

section

variable {es : List (String × Document)} {x y : Document}

/-- The first coordinate is looked up first, so that it is the one reported where both are
missing. -/
theorem asCoordinate_of_no_x (hx : Assoc.get? "x" es = none) :
    (mapping es).asCoordinate = .error (.missing "x") := by
  rw [asCoordinate_mapping, entry_of_get?_eq_none hx]
  rfl

/-- The second coordinate is missed before the first one is read. -/
theorem asCoordinate_of_no_y (hx : Assoc.get? "x" es = some x) (hy : Assoc.get? "y" es = none) :
    (mapping es).asCoordinate = .error (.missing "y") := by
  rw [asCoordinate_mapping, entry_eq_ok_iff.mpr hx, entry_of_get?_eq_none hy]
  rfl

/-- A mapping with both coordinates is read as the pair of them. -/
theorem asCoordinate_of_both (hx : Assoc.get? "x" es = some x) (hy : Assoc.get? "y" es = some y) :
    (mapping es).asCoordinate = pair x y := by
  rw [asCoordinate_mapping, entry_eq_ok_iff.mpr hx, entry_eq_ok_iff.mpr hy]
  rfl

end

/-- Points are read from pairs of numbers and from mappings of `x` and `y` to numbers. -/
theorem asCoordinate_iff (d : Document) : (∃ v, d.asCoordinate = .ok v) ↔ d.IsPoint := by
  cases d with
  | sequence items =>
      rcases items with _ | ⟨x, _ | ⟨y, _ | ⟨z, rest⟩⟩⟩
      · simp [asCoordinate, IsPoint]
      · simp [asCoordinate, IsPoint]
      · exact pair_iff x y
      · simp [asCoordinate, IsPoint]
  | mapping entries =>
      constructor
      · rintro ⟨v, hv⟩
        obtain ⟨x, hx, hrest⟩ := exists_of_bind_eq_ok hv
        obtain ⟨y, hy, hpair⟩ := exists_of_bind_eq_ok hrest
        obtain ⟨hxInt, hyInt⟩ := (pair_iff x y).mp ⟨v, hpair⟩
        exact ⟨⟨x, entry_eq_ok_iff.mp hx, hxInt⟩, ⟨y, entry_eq_ok_iff.mp hy, hyInt⟩⟩
      · rintro ⟨⟨x, hx, hxInt⟩, ⟨y, hy, hyInt⟩⟩
        obtain ⟨v, hv⟩ := (pair_iff x y).mpr ⟨hxInt, hyInt⟩
        refine ⟨v, ?_⟩
        rw [asCoordinate, entry_eq_ok_iff.mpr hx, entry_eq_ok_iff.mpr hy]
        exact hv
  | null | bool _ | integer _ | float _ | string _ => simp [asCoordinate, IsPoint]

end Flowsheet.Document
