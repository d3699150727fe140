import Flowsheet.Proofs.Reading.Roles
import Mathlib.Data.List.Find
import Mathlib.Logic.Relation

/-!
# Documents that say the same

What a mapping says does not depend on the order of its entries, on entries that its role has no key
for, or, unless it is a configuration, on nulls. `Role.Rearranges` lists these changes for one
mapping, and `Document.Rearranges` makes one of them at any place of a document.

A change leaves a mapping alike in its role: either it leaves alone what every key leads to
(`Role.Alike.of_get?`), or it leaves alone what is present under every key, and the mapping has its
type in any case (`Role.Alike.of_present?`). So documents that come out of each other by any number
of changes are loaded as the same (`load_of_rearranges`).
-/

namespace Flowsheet

open EntityType

/-! ### Changes -/

namespace Role

/-- One change to the entries of a mapping that makes no difference to what it says. -/
inductive Rearranges : Role → List (String × Document) → List (String × Document) → Prop where
  /-- The same entries in another order. -/
  | reorder {r : Role} {es es' : List (String × Document)} (hkeys : (Assoc.keys es).Nodup)
    (h : es.Perm es') : Rearranges r es es'
  /-- One more entry, under a name that is no key. -/
  | unknown {r : Role} {pre post : List (String × Document)} {name : String} (d : Document)
    (hname : ¬ r.HasKey name) : Rearranges r (pre ++ post) (pre ++ (name, d) :: post)
  /-- One more null, under a key of an entity that is no configuration. -/
  | null {types : List EntityType} {pre post : List (String × Document)} {name : String}
    (hconfig : configMap ∉ types ∧ configValue ∉ types) (hname : (entity types).HasKey name)
    (hnew : name ∉ Assoc.keys (pre ++ post)) :
    Rearranges (entity types) (pre ++ post) (pre ++ (name, .null) :: post)

/-- Mappings in which all keys lead to the same values are alike. -/
theorem Alike.of_get? {r : Role} {es es' : List (String × Document)}
    (h : ∀ name, r.HasKey name → Assoc.get? name es = Assoc.get? name es') : r.Alike es es' := by
  cases r with
  | entity types =>
      have hfield : ∀ t ∈ types, ∀ f : t.layout.Field,
          Assoc.get? (t.layout.name f) es = Assoc.get? (t.layout.name f) es' :=
        fun t ht f => h _ ⟨t, ht, f, rfl⟩
      have haccepts : ∀ t ∈ types, t.accepts es = t.accepts es' := by
        intro t ht
        cases t with
        | configMap => exact congrArg Option.isSome (hfield configMap ht .children)
        | configValue => exact congrArg Option.isSome (hfield configValue ht .value)
        | workflow | node | bounds | port | connection | annotation => rfl
      refine ⟨List.find?_congr haccepts, fun t ht => ?_⟩
      funext b f
      unfold Builder.readField Document.present?
      rw [hfield t (List.mem_of_find?_eq_some ht) f]
  | point =>
      show (Document.mapping es).asCoordinate = (Document.mapping es').asCoordinate
      rw [Document.asCoordinate_mapping, Document.asCoordinate_mapping]
      unfold Document.entry
      rw [h "x" (Or.inl rfl), h "y" (Or.inr rfl)]

/-- So are mappings in which the same is present under all names, if none of the types is that of a
configuration. -/
theorem Alike.of_present? {types : List EntityType} {es es' : List (String × Document)}
    (hconfig : configMap ∉ types ∧ configValue ∉ types)
    (h : ∀ name, Document.present? name es = Document.present? name es') :
    (entity types).Alike es es' := by
  have haccepts : ∀ t ∈ types, t.accepts es = t.accepts es' := by
    intro t ht
    cases t with
    | configMap => exact absurd ht hconfig.1
    | configValue => exact absurd ht hconfig.2
    | workflow | node | bounds | port | connection | annotation => rfl
  refine ⟨List.find?_congr haccepts, fun t _ => ?_⟩
  funext b f
  unfold Builder.readField
  rw [h]

/-- No reader can tell whether the entries of a mapping have been changed so. -/
theorem Rearranges.alike {r : Role} {es es' : List (String × Document)}
    (h : r.Rearranges es es') : r.Alike es es' := by
  cases h with
  | reorder hkeys h => exact Alike.of_get? fun name _ => Assoc.get?_perm name h hkeys
  | @unknown _ pre post name d hname =>
      refine Alike.of_get? fun key hkey => ?_
      have hne : name ≠ key := fun heq => hname (heq ▸ hkey)
      exact (Assoc.get?_middle_of_ne hne d pre post).symm
  | @null types pre post name hconfig hname hnew =>
      refine Alike.of_present? hconfig fun key => ?_
      unfold Document.present?
      by_cases hkey : name = key
      · -- nothing stands under the key on one side, and a null on the other
        subst hkey
        have hpre : name ∉ Assoc.keys pre := fun hin =>
          hnew (Assoc.keys_append pre post ▸ List.mem_append_left _ hin)
        rw [Assoc.get?_eq_none_iff.mpr hnew, Assoc.get?_middle hpre]
        rfl
      · rw [Assoc.get?_middle_of_ne hkey]

end Role

namespace Document

/-- One of two documents comes out of the other by one change to the entries of one mapping. -/
def Rearranges (d d' : Document) : Prop :=
  ∃ p r es es', LeadsTo (.entity [.workflow]) p r ∧ d.at? p = some (mapping es) ∧
    r.Rearranges es es' ∧ d.replace? p (mapping es') = some d'

end Document

/-! ### Loading -/

/-- Documents that come out of each other by changing the order of entries, by adding or removing
entries that mean nothing, and by adding or removing nulls under keys of entities other than
configurations, any number of times and at any depth, are loaded as the same: the same workflow with
the same diagnostics, or the same error, in either mode. -/
theorem load_of_rearranges {d d' : Document} (h : Relation.EqvGen Document.Rearranges d d')
    (o : LoadOptions) : o.loadDocument d = o.loadDocument d' := by
  induction h with
  | rel d d' h =>
      obtain ⟨p, r, es, es', hp, hat, hchange, hreplace⟩ := h
      obtain ⟨ds, ds', rfl, rfl, halike⟩ :=
        hp.alike distinct_workflow hchange.alike hat hreplace
      exact o.loadDocument_of_alike halike
  | refl d => rfl
  | symm d d' _ ih => exact ih.symm
  | trans d d' d'' _ _ ih ih' => exact ih.trans ih'

/-- A point with its numbers in the other order and with an entry that means nothing, and a null
beside its connection. -/
theorem load_of_rearranges_pointFlow :
    Relation.EqvGen Document.Rearranges
      (.mapping (pointFlow [("y", .integer 2), ("x", .integer 1)]))
      (.mapping (("name", .null) ::
        pointFlow [("x", .integer 1), ("y", .integer 2), ("z", .bool true)])) ∧
    ∀ o : LoadOptions,
      o.loadDocument (.mapping (pointFlow [("y", .integer 2), ("x", .integer 1)])) =
        o.loadDocument (.mapping (("name", .null) ::
          pointFlow [("x", .integer 1), ("y", .integer 2), ("z", .bool true)])) := by
  have hreorder : Document.Rearranges
      (.mapping (pointFlow [("y", .integer 2), ("x", .integer 1)]))
      (.mapping (pointFlow [("x", .integer 1), ("y", .integer 2)])) :=
    ⟨_, _, _, _, leadsTo_pointPath, rfl, .reorder (by decide) (List.Perm.swap _ _ _), rfl⟩
  have hunknown : Document.Rearranges
      (.mapping (pointFlow [("x", .integer 1), ("y", .integer 2)]))
      (.mapping (pointFlow [("x", .integer 1), ("y", .integer 2), ("z", .bool true)])) :=
    ⟨_, _, _, _, leadsTo_pointPath, rfl,
      @Role.Rearranges.unknown .point [("x", .integer 1), ("y", .integer 2)] [] "z" _
        (by simp [Role.HasKey]), rfl⟩
  have hnull : Document.Rearranges
      (.mapping (pointFlow [("x", .integer 1), ("y", .integer 2), ("z", .bool true)]))
      (.mapping (("name", .null) ::
        pointFlow [("x", .integer 1), ("y", .integer 2), ("z", .bool true)])) :=
    ⟨[], _, _, _, .here _, rfl,
      @Role.Rearranges.null [.workflow] [] _ "name" (by decide)
        ⟨.workflow, List.mem_cons_self, .name, rfl⟩ (by decide), rfl⟩
  have hall := Relation.EqvGen.trans _ _ _ (.rel _ _ hreorder)
    (.trans _ _ _ (.rel _ _ hunknown) (.rel _ _ hnull))
  exact ⟨hall, load_of_rearranges hall⟩

end Flowsheet
