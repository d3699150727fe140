import Flowsheet.Document.Event
import Flowsheet.Proofs.Reading.Scalars

/-!
# Numbers that are too great

A whole number above the range of `Int64` fits no field, and a document keeps it as the text of its
digits. Where a number, a truth value, a kind of node, a port type or a point is wanted, that leaves
a fault; but a field that takes any text takes the digits for one, and loads without a fault
(`load_oversized`, `not_oversized_faulty`).

What fields denote is known from `EntityType.denotes`, so all that is to be seen is which fields
denote a text of digits: `EntityType.textContent?` names them, and `EntityType.loads_digits` says
what becomes of the others.
-/

namespace Flowsheet

open EntityType Spot

/-! ### Digits -/

/-- A number is written in digits. -/
theorem isDigit_of_mem_toString (n : Nat) {c : Char} (hc : c ∈ (toString n).toList) :
    c.isDigit = true := by
  have hdigits : (toString n).toList = Nat.toDigits 10 n := String.toList_ofList
  rw [hdigits] at hc
  exact Nat.isDigit_of_mem_toDigits (by decide) (by decide) hc

/-- A number that does not fit into 64 bits with a sign becomes the text of its digits. -/
theorem Document.ofUnsigned_of_gt {v : UInt64} (hv : Int64.maxValue.toInt < v.toNat) :
    ofUnsigned v = string (toString v.toNat) :=
  if_neg (Int.not_le.mpr hv)

/-- No segment begins with a digit. -/
theorem PortType.IsDigit.not_start {c : Char} (hc : IsDigit c) :
    ¬ (IsLetter c ∨ c = '_' ∨ c = '$') := by
  obtain ⟨hlow, hhigh⟩ := hc
  rintro ((⟨hletter, -⟩ | ⟨hletter, -⟩) | rfl | rfl)
  · exact absurd (UInt32.le_trans hletter hhigh) (by decide)
  · exact absurd (UInt32.le_trans hletter hhigh) (by decide)
  · exact absurd hhigh (by decide)
  · exact absurd hlow (by decide)

section

variable {text : String} (h : ∀ c ∈ text.toList, c.isDigit = true)

include h

/-- A text of digits is no port type. -/
theorem PortType.not_isId_of_digits : ¬ IsId text := by
  have hdot : '.' ∉ text.toList := fun hmem => nomatch h '.' hmem
  have hsplits : SplitsInto text [text] :=
    ⟨List.cons_ne_nil _ _, by simpa using hdot, String.intercalate_singleton.symm⟩
  intro hid
  rw [isId_iff, ← (splitsInto_iff _ _).mp hsplits] at hid
  obtain ⟨c, rest, hchars, hstart, -⟩ := (hid text List.mem_cons_self).isWord
  have hdigit : c.isDigit = true := h c (hchars ▸ List.mem_cons_self)
  exact ((isDigit_iff c).mp hdigit).not_start hstart

/-- A text of digits is no kind of node. -/
theorem NodeKind.text_ne_of_digits (k : NodeKind) : text ≠ k.text := by
  rintro rfl
  cases k with
  | native => exact nomatch h 'N' (by decide)
  | component => exact nomatch h 'C' (by decide)
  | metanode => exact nomatch h 'M' (by decide)

end

/-! ### Fields -/

section

variable {α : Type} {denotes : α → Document → Prop} {isRequired : Bool} {d : Document}
  {c : Option α} {t : Option FaultTree}

/-- A value whose entry denotes something is that, and it has no fault. -/
theorem IsFaithful.of_denotes (h : IsFaithful denotes isRequired (some d) c t) {v : α}
    (hv : denotes v d) : c = some v ∧ t = none := by
  have hc : c = some v := (h.value_iff v).mpr ⟨d, rfl, hv⟩
  refine ⟨hc, Option.not_isSome_iff_eq_none.mp fun hfaulty => ?_⟩
  rw [hc] at h
  exact nomatch (h.faulty_iff.mp hfaulty).1

/-- A value whose entry denotes nothing is missed with one fault. -/
theorem IsFaithful.of_not_denotes (h : IsFaithful denotes isRequired (some d) c t)
    (hnone : ∀ v, ¬ denotes v d) : c = none ∧ ∃ fault, t = some (.leaf fault) := by
  have hc : c = none := by
    refine Option.eq_none_iff_forall_ne_some.mpr fun v hv => ?_
    obtain ⟨d', hd, hdenotes⟩ := (h.value_iff v).mp hv
    obtain rfl := Option.some.inj hd
    exact hnone v hdenotes
  obtain ⟨u, hu⟩ := Option.isSome_iff_exists.mp (h.faulty_iff.mpr ⟨hc, Or.inr nofun⟩)
  obtain ⟨fault, rfl⟩ := h.leaf u hu
  exact ⟨hc, fault, hu⟩

end

/-- What a field that takes any text holds for a text. -/
def EntityType.textContent? : (t : EntityType) → (f : t.layout.Field) →
    Option (String → (t.layout.shape f).Content)
  | workflow, .name | node, .name | port, .name | annotation, .text => some some
  | configValue, .value => some fun text => some (.string text)
  | workflow, .nodes | workflow, .connections | workflow, .annotations => none
  | node, .id | node, .kind | node, .bounds | node, .inPorts | node, .outPorts
  | node, .modelSettings => none
  | bounds, .x | bounds, .y | bounds, .width | bounds, .height => none
  | port, .index | port, .portType => none
  | connection, .sourceId | connection, .sourcePort | connection, .destId | connection, .destPort
  | connection, .deletable | connection, .bendPoints => none
  | annotation, .bounds | annotation, .borderSize | configMap, .children => none

/-- Whether the field holds at most one plain value. -/
def Shape.IsPlain : Shape → Prop
  | required _ | optional _ => True
  | @requiredPart _ _ | @optionalPart _ _ | list _ | @parts _ _ | @namedParts _ _ => False

/-- A text of digits is held by the fields that take any text, and is missed with a fault by all
others. -/
theorem EntityType.loads_digits (t : EntityType) (f : t.layout.Field)
    (hplain : (t.layout.shape f).IsPlain) {text : String}
    (h : ∀ c ∈ text.toList, c.isDigit = true) {c : (t.layout.shape f).Content}
    {tree : Option FaultTree} (hread : (t.layout.shape f).IsFaithful (t.denotes f) (t.standIn f)
      (some (.string text)) c tree) :
    match t.textContent? f with
    | some content => c = content text ∧ tree = none
    | none => c = (t.layout.shape f).blank ∧ ∃ fault, tree = some (.leaf fault) := by
  have hnumber : ∀ n, ¬ (Document.string text).IsNumber n := fun n ⟨_, hn, _⟩ => nomatch hn
  -- digits denote a text and nothing else, and no segment or kind of node is made of digits
  cases t with
  | workflow =>
      cases f with
      | name => exact hread.of_denotes rfl
      | nodes | connections | annotations => exact hplain.elim
  | node =>
      cases f with
      | id => exact hread.of_not_denotes fun v => hnumber _
      | name => exact hread.of_denotes rfl
      | kind =>
          exact hread.of_not_denotes fun k hk =>
            NodeKind.text_ne_of_digits h k (Document.string.inj hk)
      | bounds | inPorts | outPorts | modelSettings => exact hplain.elim
  | bounds => cases f <;> exact hread.of_not_denotes fun v => hnumber _
  | port =>
      cases f with
      | index => exact hread.of_not_denotes fun v => hnumber _
      | portType =>
          refine hread.of_not_denotes fun v hv => PortType.not_isId_of_digits h ?_
          rw [Document.string.inj hv]
          exact (PortType.problem?_eq_none_iff_isId v.text).mp v.valid
      | name => exact hread.of_denotes rfl
  | connection =>
      cases f with
      | sourceId | sourcePort | destId | destPort => exact hread.of_not_denotes fun v => hnumber _
      | deletable => exact hread.of_not_denotes fun v hv => nomatch hv
      | bendPoints => exact hplain.elim
  | annotation =>
      cases f with
      | text => exact hread.of_denotes rfl
      | bounds => exact hplain.elim
      | borderSize => exact hread.of_not_denotes fun v => hnumber _
  | configMap =>
      cases f with
      | children => exact hplain.elim
  | configValue =>
      cases f with
      | value => exact hread.of_denotes (.string text)

/-! ### Points -/

/-- One of the two numbers of a point, or what stands in its place. -/
def Document.HasComponent (item d : Document) : Prop :=
  match item with
  | sequence [x, y] => x = d ∨ y = d
  | mapping es => Assoc.get? "x" es = some d ∨ Assoc.get? "y" es = some d
  | _ => False

/-- A point of which one part is no number is none. -/
theorem Document.not_isPointAt_of_hasComponent {item d : Document} (h : item.HasComponent d)
    (hd : ∀ n, ¬ d.IsNumber n) (c : Coordinate) : ¬ item.IsPointAt c := by
  rintro ⟨x, y, hx, hy, rfl | ⟨es, rfl, hxget, hyget⟩⟩
  · rcases h with rfl | rfl
    · exact hd _ hx
    · exact hd _ hy
  · rcases h with hget | hget
    · rw [hxget] at hget
      exact hd _ (Option.some.inj hget ▸ hx)
    · rw [hyget] at hget
      exact hd _ (Option.some.inj hget ▸ hy)

/-- An item that denotes nothing has a stand-in in its place, and one fault under its index. -/
theorem IsFaithfulList.of_not_denotes {α : Type} {denotes : α → Document → Prop} {standIn : α}
    {items : List Document} {vs : List α} {t : FaultTree}
    (h : IsFaithfulList denotes standIn (some (.sequence items)) vs t) {i : Nat} {d : Document}
    (hd : items[i]? = some d) (hnone : ∀ v, ¬ denotes v d) :
    vs[i]? = some standIn ∧ ∃ fault, t.child? (.index i) = some (.leaf fault) := by
  have hlt : i < vs.length := by
    rw [h.length_eq items rfl]
    exact (List.getElem?_eq_some_iff.mp hd).1
  have hget : vs[i]? = some vs[i] := List.getElem?_eq_getElem hlt
  rcases h.value items rfl i d _ hd hget with ⟨hdenotes, -⟩ | ⟨-, hstandIn, hfault⟩
  · exact absurd hdenotes (hnone _)
  · exact ⟨hget.trans (congrArg some hstandIn), hfault⟩

/-! ### Loading -/

/-- Where the document has a number above the range of `Int64`, a field that takes any text is
loaded with the digits of the number and without a fault, any other plain field is missed with a
fault, and a point is replaced by the origin with a fault under its index. -/
theorem load_oversized (source : String) {entries : List (String × Document)}
    (h : (Document.mapping entries).WellFormed) {v : UInt64}
    (hv : Int64.maxValue.toInt < v.toNat) {d : Document}
    (hd : Document.ofEvent (.unsigned v) = .ok d) :
    ∃ l, LoadOptions.loadDocument ⟨source, .tolerant⟩ (.mapping entries) = .ok l ∧
      (∀ p t es, StandsAt .workflow entries p t es →
        ∃ r : Record t.layout, l.workflow.spot.entityAt? p = some ⟨t, r⟩ ∧
          ∀ f, (t.layout.shape f).IsPlain → Document.present? (t.layout.name f) es = some d →
            match t.textContent? f with
            | some content =>
              r.get f = content (toString v.toNat) ∧ r.faults.field? (t.layout.name f) = none
            | none => r.get f = (t.layout.shape f).blank ∧
              ∃ fault, r.faults.field? (t.layout.name f) = some (.leaf fault)) ∧
      ∀ p es, StandsAt .workflow entries p .connection es →
        ∃ r : Record Connection.layout, l.workflow.spot.entityAt? p = some ⟨.connection, r⟩ ∧
          ∀ items i item, Document.present? "bend_points" es = some (.sequence items) →
            items[i]? = some item → item.HasComponent d →
              (r.get .bendPoints)[i]? = some Coordinate.origin ∧
              ∃ fault, (r.faults.subtree "bend_points").child? (.index i) =
                some (.leaf fault) := by
  obtain rfl : Document.string (toString v.toNat) = d := by
    rw [← Document.ofUnsigned_of_gt hv]
    exact Except.ok.inj hd
  obtain ⟨l, hload, hstands⟩ := LoadOptions.loadDocument_standsAt source h
  refine ⟨l, hload, fun p t es hp => ⟨_, hstands p t es hp, fun f hplain hpresent => ?_⟩,
    fun p es hp => ⟨_, hstands p _ es hp, fun items i item hpresent hitem hcomponent => ?_⟩⟩
  · have hread := Layout.isFaithful_loadedRecord t es f
    rw [hpresent] at hread
    exact t.loads_digits f hplain (fun c hc => isDigit_of_mem_toString v.toNat hc) hread
  · have hread : IsFaithfulList Document.IsPointAt Coordinate.origin
        (Document.present? "bend_points" es) _ _ :=
      Layout.isFaithful_loadedRecord .connection es .bendPoints
    rw [hpresent] at hread
    refine hread.of_not_denotes hitem (Document.not_isPointAt_of_hasComponent hcomponent ?_)
    exact fun n ⟨_, hn, _⟩ => nomatch hn

/-- The least number that is too great, in the place of a name, of a node's number and of one of the
numbers of a point. -/
def oversizedFlow : List (String × Document) :=
  [("name", .string "9223372036854775808"),
    ("nodes", .mapping [("a", .mapping [("id", .string "9223372036854775808")])]),
    ("connections", .sequence [.mapping [("bend_points",
      .sequence [.sequence [.integer 1, .string "9223372036854775808"]])]])]

/-- The name is loaded with the digits, the node's number is missed, and the point is replaced. -/
theorem load_oversized_oversizedFlow :
    (Document.mapping oversizedFlow).WellFormed ∧
    Int64.maxValue.toInt < (9223372036854775808 : UInt64).toNat ∧
    Document.ofEvent (.unsigned 9223372036854775808) = .ok (.string "9223372036854775808") ∧
    ∃ l, LoadOptions.loadDocument ⟨"w", .tolerant⟩ (.mapping oversizedFlow) = .ok l ∧
      ∃ (flow : Record Workflow.layout) (a : Record Node.layout) (c : Record Connection.layout),
        l.workflow.spot.entityAt? [] = some ⟨.workflow, flow⟩ ∧
        l.workflow.spot.entityAt? [.field "nodes", .key "a"] = some ⟨.node, a⟩ ∧
        l.workflow.spot.entityAt? [.field "connections", .index 0] = some ⟨.connection, c⟩ ∧
        (flow.get .name = some "9223372036854775808" ∧ flow.faults.field? "name" = none) ∧
        (a.get .id = none ∧ ∃ fault, a.faults.field? "id" = some (.leaf fault)) ∧
        (c.get .bendPoints)[0]? = some Coordinate.origin ∧
        ∃ fault, (c.faults.subtree "bend_points").child? (.index 0) = some (.leaf fault) := by
  have hwf : (Document.mapping oversizedFlow).WellFormed := by
    simp [oversizedFlow, Document.WellFormed, Document.WellFormedEntries,
      Document.WellFormedItems, Assoc.keys]
  have hv : Int64.maxValue.toInt < (9223372036854775808 : UInt64).toNat := by decide
  have hd : Document.ofEvent (.unsigned 9223372036854775808) =
      .ok (.string "9223372036854775808") := by
    rw [Document.ofEvent, Document.ofUnsigned_of_gt hv]
    rfl
  have ha : StandsAt .workflow oversizedFlow [.field "nodes", .key "a"] .node
      [("id", .string "9223372036854775808")] :=
    .member (t := .workflow) (f := .nodes) rfl rfl List.mem_cons_self rfl .root
  have hc : StandsAt .workflow oversizedFlow [.field "connections", .index 0] .connection
      [("bend_points", .sequence [.sequence [.integer 1, .string "9223372036854775808"]])] :=
    .member (t := .workflow) (f := .connections) rfl rfl List.mem_cons_self rfl .root
  obtain ⟨l, hload, hentities, hpoints⟩ := load_oversized "w" hwf hv hd
  obtain ⟨flow, hflow, hname⟩ := hentities _ _ _ .root
  obtain ⟨a, hnode, hid⟩ := hentities _ _ _ ha
  obtain ⟨c, hconnection, hbend⟩ := hpoints _ _ hc
  exact ⟨hwf, hv, hd, l, hload, flow, a, c, hflow, hnode, hconnection, hname .name trivial rfl,
    hid .id trivial rfl, hbend _ 0 _ rfl rfl (Or.inr rfl)⟩

/-- A number that is too great is loaded as the name of a workflow without a fault. -/
theorem not_oversized_faulty :
    ¬ ∀ (v : UInt64) (d : Document), Int64.maxValue.toInt < v.toNat →
      Document.ofEvent (.unsigned v) = .ok d →
        ∀ l, LoadOptions.loadDocument ⟨"w", .tolerant⟩ (.mapping [("name", d)]) = .ok l →
          ∃ u, l.workflow.faults.field? "name" = some u := by
  intro hall
  have hd : Document.ofEvent (.unsigned 9223372036854775808) =
      .ok (.string "9223372036854775808") := by
    rw [Document.ofEvent, Document.ofUnsigned_of_gt (by decide)]
    rfl
  obtain ⟨u, hu⟩ := hall 9223372036854775808 _ (by decide) hd _ rfl
  cases hu

end Flowsheet
