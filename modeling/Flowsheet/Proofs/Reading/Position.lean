import Flowsheet.Proofs.Build.Trees
import Flowsheet.Proofs.Document
import Flowsheet.Proofs.Views

/-!
# Positions in documents and in what is loaded from them

A path leads to a value in a document (`Document.replace?` puts another one there) and to a spot in
what is loaded from the document (`Spot.at?`). `IsPosition` singles out the paths at which an entity
of some types keeps a value of its own: a field, or an element of a list or map, at any depth.

`Spot.AgreeOff p` says that two loaded values are the same outside `p`: away from `p` they hold the
same things, and above `p` they still have the same fields, places and keys.
-/

namespace Flowsheet

open EntityType

/-! ### Positions -/

namespace Shape

/-- Whether the field holds at most one part. -/
def IsSingle : Shape → Prop
  | @requiredPart _ _ | @optionalPart _ _ => True
  | required _ | optional _ | list _ | @parts _ _ | @namedParts _ _ => False

/-- Whether elements of the field stand under such keys. -/
def HasElement : Shape → FaultKey → Prop
  | list _, .index _ | @parts _ _, .index _ | @namedParts _ _, .key _ => True
  | _, _ => False

end Shape

/-- The paths from an entity of some types to the values of fields and to the elements of lists and
maps, its own or those of entities below it. -/
inductive IsPosition : List EntityType → FaultPath → Prop where
  /-- The value of a field. -/
  | field {types : List EntityType} {name : String} {field : (t : EntityType) × t.layout.Field}
      (h : findField? types name = some field) : IsPosition types [.field name]
  /-- An element of a list or map. -/
  | element {types : List EntityType} {name : String} {field : (t : EntityType) × t.layout.Field}
      (h : findField? types name = some field) {key : FaultKey}
      (hkey : (field.1.layout.shape field.2).HasElement key) : IsPosition types [.field name, key]
  /-- A position below a single part. -/
  | belowPart {types : List EntityType} {name : String}
      {field : (t : EntityType) × t.layout.Field} (h : findField? types name = some field)
      (hsingle : (field.1.layout.shape field.2).IsSingle) {rest : FaultPath}
      (hrest : IsPosition (field.1.parts field.2) rest) : IsPosition types (.field name :: rest)
  /-- A position below an element. -/
  | belowElement {types : List EntityType} {name : String}
      {field : (t : EntityType) × t.layout.Field} (h : findField? types name = some field)
      {key : FaultKey} (hkey : (field.1.layout.shape field.2).HasElement key) {rest : FaultPath}
      (hrest : IsPosition (field.1.parts field.2) rest) :
      IsPosition types (.field name :: key :: rest)

namespace Document

/-- The document with another value at the end of a path, if the path leads to a value. -/
def replace? : Document → FaultPath → Document → Option Document
  | _, [], value => some value
  | mapping entries, .field name :: rest, value | mapping entries, .key name :: rest, value =>
    (Assoc.get? name entries).bind fun d =>
      (d.replace? rest value).map fun d' => mapping (Assoc.insert name d' entries)
  | sequence items, .index i :: rest, value =>
    (items[i]?).bind fun d => (d.replace? rest value).map fun d' => sequence (items.set i d')
  | _, _ :: _, _ => none

end Document

/-! ### Spots -/

/-- What stands at a path in a loaded value. -/
inductive Spot : Type 1 where
  /-- An entity. -/
  | entity (x : AnyEntity)
  /-- A field with its content. -/
  | field (s : Shape) (view : s.PartView) (content : s.Content)
  /-- An element of a list of plain values. -/
  | element (α : Type) (value : α)

namespace AnyEntity

/-- The field of an entity under a key. -/
def child? (x : AnyEntity) : FaultKey → Option Spot
  | .field name => (x.1.layout.field? name).map fun f =>
    .field (x.1.layout.shape f) (x.1.partView f) (x.2.get f)
  | .index _ | .key _ | .prior => none

/-- The keys of an entity's fields. -/
def childKeys (x : AnyEntity) : List FaultKey := x.1.layout.fields.map x.1.layout.key

end AnyEntity

namespace Shape

/-- What stands one step below the content of a field. A single part stands at the field itself, so
one step below are the part's fields. -/
def child? : (s : Shape) → s.PartView → s.Content → FaultKey → Option Spot
  | @requiredPart _ _, view, c, key | @optionalPart _ _, view, c, key =>
    c.bind fun a => AnyEntity.child? (view a) key
  | list α, _, items, .index i => items[i]?.map fun a => Spot.element α a
  | @parts _ _, view, items, .index i => items[i]?.map fun a => .entity (view a)
  | @namedParts _ _, view, entries, .key k => (Assoc.get? k entries).map fun a => .entity (view a)
  | _, _, _, _ => none

/-- The keys under which something stands below the content of a field. -/
def childKeys : (s : Shape) → s.PartView → s.Content → List FaultKey
  | required _, _, _ | optional _, _, _ => []
  | @requiredPart _ _, view, c | @optionalPart _ _, view, c =>
    (c.map fun a => AnyEntity.childKeys (view a)).getD []
  | list _, _, c | @parts _ _, _, c => (List.range c.length).map .index
  | @namedParts _ _, _, c => (Assoc.keys c).map .key

end Shape

namespace Spot

/-- What stands one step further down. -/
def child? : Spot → FaultKey → Option Spot
  | entity x, key => AnyEntity.child? x key
  | field s view c, key => s.child? view c key
  | element _ _, _ => none

/-- The keys under which something stands one step further down. -/
def childKeys : Spot → List FaultKey
  | entity x => AnyEntity.childKeys x
  | field s view c => s.childKeys view c
  | element _ _ => []

/-- What stands at the end of a path. -/
def at? (s : Spot) : FaultPath → Option Spot
  | [] => some s
  | key :: rest => (s.child? key).bind fun c => c.at? rest

/-- The empty path leads to the spot itself. -/
@[simp] theorem at?_nil (s : Spot) : s.at? [] = some s := rfl

/-- A path leads below the child that its first key names. -/
theorem at?_cons (s : Spot) (key : FaultKey) (rest : FaultPath) :
    s.at? (key :: rest) = (s.child? key).bind fun c => c.at? rest := rfl

/-! ### Agreement outside a path -/

/-- Two spots hold the same away from `p`, and have the same keys above `p`. -/
def AgreeOff (p : FaultPath) (a b : Spot) : Prop :=
  ∀ q, ¬ p <+: q →
    (a.at? q).map childKeys = (b.at? q).map childKeys ∧ (¬ q <+: p → a.at? q = b.at? q)

/-- Away from the root there is nothing to agree on. -/
theorem agreeOff_nil (a b : Spot) : AgreeOff [] a b :=
  fun q hq => absurd (List.nil_prefix (l := q)) hq

/-- Every spot agrees with itself. -/
theorem agreeOff_refl (p : FaultPath) (a : Spot) : AgreeOff p a a :=
  fun _ _ => ⟨rfl, fun _ => rfl⟩

/-- Two spots that differ only below one key agree outside a path if what is below that key does. -/
theorem agreeOff_cons {key : FaultKey} {rest : FaultPath} {a b c d : Spot}
    (hkeys : a.childKeys = b.childKeys) (hother : ∀ k, k ≠ key → a.child? k = b.child? k)
    (ha : a.child? key = some c) (hb : b.child? key = some d) (h : AgreeOff rest c d) :
    AgreeOff (key :: rest) a b := by
  intro q hq
  cases q with
  | nil => exact ⟨congrArg some hkeys, fun hnil => absurd List.nil_prefix hnil⟩
  | cons k q =>
      rw [at?_cons, at?_cons]
      by_cases hk : k = key
      · subst hk
        have hrest : ¬ rest <+: q := fun hprefix => hq (List.cons_prefix_cons.mpr ⟨rfl, hprefix⟩)
        rw [ha, hb]
        refine ⟨(h q hrest).1, fun hqp => (h q hrest).2 fun hprefix => hqp ?_⟩
        exact List.cons_prefix_cons.mpr ⟨rfl, hprefix⟩
      · rw [hother k hk]
        exact ⟨rfl, fun _ => rfl⟩

/-- Only what is below two spots counts. -/
theorem AgreeOff.congr {p : FaultPath} {a b a' b' : Spot} (h : AgreeOff p a b)
    (ha : a'.child? = a.child?) (hb : b'.child? = b.child?)
    (hakeys : a'.childKeys = a.childKeys) (hbkeys : b'.childKeys = b.childKeys) :
    AgreeOff p a' b' := by
  intro q hq
  cases q with
  | nil =>
      have hroot : a.childKeys = b.childKeys := Option.some.inj (h [] hq).1
      refine ⟨?_, fun hnil => absurd List.nil_prefix hnil⟩
      rw [at?_nil, at?_nil, Option.map_some, Option.map_some, hakeys, hbkeys, hroot]
  | cons k q =>
      rw [at?_cons, at?_cons, ha, hb]
      exact h (k :: q) hq

end Spot

namespace FaultTree

/-- The faults of a tree whose paths do not start with `p`. -/
def outside (p : FaultPath) (t : FaultTree) : List (FaultPath × Fault) :=
  t.faults.filter fun e => !p.isPrefixOf e.1

/-- Outside the whole tree there is nothing. -/
theorem outside_nil (t u : FaultTree) : t.outside [] = u.outside [] := by
  have hnil : ∀ v : FaultTree, v.outside [] = [] := by
    intro v
    unfold outside
    rw [List.filter_eq_nil_iff]
    intro e _
    simp [List.isPrefixOf]
  rw [hnil, hnil]

/-- In merged trees that differ in one child only, the faults outside a path are the same if those
of that child are. -/
theorem outside_merge {pre post : List (FaultKey × FaultTree)} {key : FaultKey} {t u : FaultTree}
    {rest : FaultPath} (ht : (Assoc.keys (pre ++ (key, t) :: post)).Nodup)
    (h : t.outside rest = u.outside rest) :
    (merge none (pre ++ (key, t) :: post)).outside (key :: rest) =
      (merge none (pre ++ (key, u) :: post)).outside (key :: rest) := by
  have hu : (Assoc.keys (pre ++ (key, u) :: post)).Nodup := by
    simpa [Assoc.keys] using ht
  have hchild : ∀ v : FaultTree,
      ((v.faults.map fun e => (key :: e.1, e.2)).filter fun e => !(key :: rest).isPrefixOf e.1) =
        (v.outside rest).map fun e => (key :: e.1, e.2) := by
    intro v
    rw [List.filter_map, outside]
    congr 1
    refine List.filter_congr fun e _ => ?_
    simp [List.isPrefixOf]
  unfold outside
  rw [faults_merge ht, faults_merge hu]
  simp only [faultsBelow_eq_flatMap, List.flatMap_append, List.flatMap_cons, List.filter_append,
    hchild, h]

end FaultTree

end Flowsheet
