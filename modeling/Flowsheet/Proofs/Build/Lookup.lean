import Flowsheet.Proofs.Build.Edit

/-!
# Configurations and their trees, level by level

The entries of a configuration and the trees of its faults are nested in parallel, but every tree is
a copy of its own, stored when the entry was put. The two agree at every depth: the path that some
keys spell leads to a tree just if the keys lead to a faulty configuration, and then the tree is
that configuration's own (`at?_faultPath_iff`).

One level is one key. In a map the tree of the children is coherent with the children, whatever was
supplied, fell back, was copied, or was marked (`child?_key_children`); a single value has no tree
of children (`field?_children_of_value`). The rest is an induction over the keys.
-/

namespace Flowsheet

open FaultTree

/-- An entity that can be made has trees of its own fields only. -/
theorem AnyEntity.IsCopied.field?_eq_none {x : AnyEntity} (h : x.IsCopied) {name : String}
    (hname : ∀ f, x.1.layout.name f ≠ name) : x.faults.field? name = none := by
  rw [← field?_unmarked, h.unmarked_eq]
  unfold FaultTree.field? FaultTree.child?
  rw [Assoc.get?_eq_none_iff]
  intro hmem
  obtain ⟨c, hc, hkey⟩ := List.mem_map.mp hmem
  obtain ⟨f, -, rfl⟩ := List.mem_map.mp (mem_children_merge hc).1
  exact hname f (FaultKey.field.inj hkey)

/-- What stands below the tree of a field, whether or not the field has a tree. -/
theorem FaultTree.bind_field? (t : FaultTree) (name : String) (key : FaultKey) :
    ((t.field? name).bind fun u => u.child? key) = (t.subtree name).child? key := by
  unfold subtree
  cases t.field? name <;> rfl

namespace Config

/-- The path to the tree of what some keys lead to. -/
def faultPath : List String → FaultPath
  | [] => []
  | k :: rest => .field "children" :: .key k :: faultPath rest

/-! ### One level -/

/-- Without keys a lookup stays where it is. -/
theorem lookup_nil (c : Config) : c.lookup [] = some c := by
  cases c <;> rfl

/-- A lookup goes down one key and looks up the others there. -/
theorem lookup_cons (c : Config) (k : String) (rest : List String) :
    c.lookup (k :: rest) = (c.lookup [k]).bind fun d => d.lookup rest := by
  cases c with
  | map children t =>
      show (Assoc.get? k children).bind _ = ((Assoc.get? k children).bind _).bind _
      cases Assoc.get? k children with
      | none => rfl
      | some d =>
          rw [Option.bind_some, Option.bind_some, lookup_nil]
          rfl
  | value v t => rfl

/-- An entry of a configuration that can be made can be made. -/
theorem reachable_of_lookup {c d : Config} (h : Reachable c.view) {k : String}
    (hd : c.lookup [k] = some d) : Reachable d.view := by
  cases c with
  | map children t =>
      have hget : Assoc.get? k children = some d := by
        obtain ⟨e, he, hed⟩ := Option.bind_eq_some_iff.mp hd
        rw [lookup_nil] at hed
        rwa [← Option.some.inj hed]
      have hmem : d.view ∈ AnyEntity.members (view (map children t)) ConfigMap.Field.children :=
        List.mem_map.mpr ⟨(k, d), Assoc.mem_of_get?_eq_some hget, rfl⟩
      exact h.invariant.2 _ _ hmem
  | value v t => cases hd

/-- A single value has no tree of children. -/
theorem field?_children_of_value {v : Option Scalar} {t : FaultTree}
    (h : Reachable (view (value v t))) : t.field? "children" = none :=
  h.isCopied.field?_eq_none fun f hname => by
    cases f
    exact absurd hname (by decide : "value" ≠ "children")

/-- Below the tree of a map's children there is, under a key, the own tree of the entry there. -/
theorem child?_key_children {children : List (String × Config)} {t : FaultTree}
    (h : Reachable (view (map children t))) (k : String) :
    (t.subtree "children").child? (.key k) =
      ((Assoc.get? k children).filter HasFaults.isFaulty).map HasFaults.faults := by
  have hcoherent : (Shape.namedParts Config).Coherent children (t.subtree "children") :=
    h.invariant.1 ConfigMap.Field.children
  exact hcoherent.2.1 (.key k)

/-- The first two keys of a path lead to the tree of the entry that the first key leads to. -/
theorem at?_faultPath_cons {c : Config} (h : Reachable c.view) (k : String) (rest : List String) :
    c.faults.at? (faultPath (k :: rest)) =
      ((c.lookup [k]).filter HasFaults.isFaulty).bind fun d => d.faults.at? (faultPath rest) := by
  have hpath : c.faults.at? (faultPath (k :: rest)) =
      ((c.faults.field? "children").bind fun u => u.child? (.key k)).bind
        fun u => u.at? (faultPath rest) := by
    rw [faultPath, at?_cons, Option.bind_assoc]
    rfl
  rw [hpath]
  cases c with
  | map children t =>
      have hlookup : (map children t).lookup [k] = Assoc.get? k children := by
        show (Assoc.get? k children).bind _ = _
        simp only [lookup_nil, Option.bind_fun_some]
      rw [bind_field?, hlookup]
      show ((t.subtree "children").child? (.key k)).bind _ = _
      rw [child?_key_children h, Option.bind_map]
      rfl
  | value v t =>
      show ((t.field? "children").bind _).bind _ = _
      rw [field?_children_of_value h]
      rfl

/-! ### Every depth -/

/-- A configuration without faults has no trees below its own. -/
theorem at?_faultPath_of_not_isFaulty {d : Config} (h : HasFaults.isFaulty d = false) (k : String)
    (rest : List String) : d.faults.at? (faultPath (k :: rest)) = none := by
  have hempty : d.faults = .empty := hasFaults_eq_false_iff.mp h
  rw [hempty]
  rfl

/-- The path that keys spell leads to the own tree of what the keys lead to, if that is faulty. -/
theorem at?_faultPath {c : Config} (h : Reachable c.view) {keys : List String}
    (hkeys : keys ≠ []) :
    c.faults.at? (faultPath keys) =
      ((c.lookup keys).filter HasFaults.isFaulty).map HasFaults.faults := by
  induction keys generalizing c with
  | nil => exact absurd rfl hkeys
  | cons k rest ih =>
      rw [at?_faultPath_cons h, lookup_cons c k rest]
      cases hd : c.lookup [k] with
      | none => rfl
      | some d =>
          rw [Option.bind_some, Option.filter_some]
          cases rest with
          | nil =>
              -- the tree of the last entry is the whole tree
              rw [lookup_nil, Option.filter_some]
              split
              · exact at?_nil _
              · rfl
          | cons j others =>
              -- an entry without faults has nothing below it either
              rw [← ih (reachable_of_lookup h hd) (List.cons_ne_nil j others)]
              cases hfaulty : HasFaults.isFaulty d with
              | true => rfl
              | false => exact (at?_faultPath_of_not_isFaulty hfaulty j others).symm

/-- A configuration that can be made, whether the entries on the way were supplied, fell back, were
copied or were marked any number of times, and keys, at least one. The path that the keys spell
leads to a tree just if the keys lead to a faulty configuration, and then the tree is that
configuration's own. -/
theorem at?_faultPath_iff {c : Config} (h : Reachable c.view) {keys : List String}
    (hkeys : keys ≠ []) (t : FaultTree) :
    c.faults.at? (faultPath keys) = some t ↔
      ∃ d, c.lookup keys = some d ∧ HasFaults.isFaulty d = true ∧ t = HasFaults.faults d := by
  rw [at?_faultPath h hkeys, Option.map_eq_some_iff]
  constructor
  · rintro ⟨d, hd, rfl⟩
    obtain ⟨hlookup, hfaulty⟩ := Option.filter_eq_some_iff.mp hd
    exact ⟨d, hlookup, hfaulty, rfl⟩
  · rintro ⟨d, hlookup, hfaulty, rfl⟩
    exact ⟨d, Option.filter_eq_some_iff.mpr ⟨hlookup, hfaulty⟩, rfl⟩

/-! ### Entries that fell back -/

/-- A map that is given one entry, or a fallback for it. -/
def holding (k : String) (given : Except Cause Config) (fallback : Config) : Config :=
  ConfigMap.toConfig (Entity.ofRecord ((Builder.new ConfigMap.layout .tolerant).attempts
    [⟨.children, .supplyOne k given fallback⟩]).settled.toRecord)

/-- A map with one entry can be made if what is given for the entry can. -/
theorem reachable_holding {k : String} {given : Except Cause Config} {fallback : Config}
    (hgiven : ∀ c, given = .ok c → Reachable c.view) (hfallback : Reachable fallback.view) :
    Reachable (holding k given fallback).view := by
  refine Reachable.built (t := .configMap) .tolerant
    [⟨ConfigMap.Field.children, .supplyOne k given fallback⟩] (fun c hc => ?_) (fun c hc x hx => ?_)
    (Builder.build_tolerant (Builder.mode_attempts _ _))
  · obtain rfl := List.mem_singleton.mp hc
    trivial
  · obtain rfl := List.mem_singleton.mp hc
    rcases List.mem_append.mp hx with hx | hx
    · obtain ⟨d, hd, rfl⟩ := List.mem_map.mp hx
      cases given with
      | error cause => cases hd
      | ok c =>
          obtain rfl := List.mem_singleton.mp hd
          exact hgiven _ rfl
    · obtain rfl := List.mem_singleton.mp hx
      exact hfallback

/-- A value that could not be read. -/
def lostValue : Config := ConfigValue.toConfig (Entity.placeholder ConfigValue)

/-- A map with that value in place of one of its entries. -/
def settingsWithGap : Config := holding "limit" (.error (.text "no limit")) lostValue

/-- A map with that map as its entry, marked twice. -/
def markedSettings : Config :=
  HasFaults.mark ⟨.text "given up"⟩
    (HasFaults.mark ⟨.text "unreadable"⟩ (holding "reader" (.ok settingsWithGap) lostValue))

/-- The marked settings can be made. -/
theorem reachable_markedSettings : Reachable markedSettings.view := by
  have hview : IsView [.configMap, .configValue] Config.view :=
    EntityType.partView_lawful .configMap ConfigMap.Field.children
  have hrecord : Entity.toRecord (Entity.placeholder ConfigValue) =
      Record.placeholder ConfigValue.layout := Entity.toRecord_ofRecord _
  have hlost : Reachable lostValue.view := Reachable.of_eq_placeholder .configValue hrecord
  have hgap : Reachable settingsWithGap.view := reachable_holding (fun c hc => by cases hc) hlost
  have houter : Reachable (holding "reader" (.ok settingsWithGap) lostValue).view :=
    reachable_holding (fun c hc => Except.ok.inj hc ▸ hgap) hlost
  unfold markedSettings
  rw [hview.view_mark, hview.view_mark]
  exact (houter.marked _).marked _

/-- The marks of the outer map are not in the way to the value that fell back. -/
theorem at?_faultPath_iff_markedSettings :
    Reachable markedSettings.view ∧ ∃ d, markedSettings.lookup ["reader", "limit"] = some d ∧
      markedSettings.faults.at? [.field "children", .key "reader", .field "children",
        .key "limit"] = some (HasFaults.faults d) := by
  have hpath := at?_faultPath_iff reachable_markedSettings (List.cons_ne_nil "reader" ["limit"])
  exact ⟨reachable_markedSettings, _, rfl, (hpath _).mpr ⟨_, rfl, rfl, rfl⟩⟩

end Config

end Flowsheet
