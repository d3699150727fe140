import Flowsheet.Proofs.Reading.Errors
import Flowsheet.Proofs.Reading.Strict

/-!
# Where diagnostics point

The path of a diagnostic can be followed in the document itself (`Document.at?`). An unusable value
stands at the end of its path; a field that is missing is missing in what stands one step above.
Bend points are the one exception, since a point is read as a whole: one that lacks a number is
reported where the point stands (`Document.BearsOut`).

Every fault of a load is an error of an entity below (`arises_of_mem_faults`). Its mapping bears the
error out (`OwnError.bearsOut`), and what a mapping below bears out, the whole document does
(`StandsAt.bearsOut`).
-/

namespace Flowsheet

open EntityType

/-! ### What bears a diagnostic out -/

namespace Document

/-- What a document has to do with a diagnostic of some class at a path. The path is followed
through entities of some types, and `last` is the field that was met last. -/
inductive BearsOut (types : List EntityType) (last : Option ((t : EntityType) × t.layout.Field))
    (d : Document) : FaultPath → DiagnosticCode → Prop where
  /-- A value that cannot be used stands at the end of the path. -/
  | value {p : FaultPath} {e : Document} (hat : d.at? p = some e) :
    BearsOut types last d p .invalidValue
  /-- A bend point without one of its numbers stands at the end of the path. -/
  | point {p : FaultPath} {i : Nat} {es : List (String × Document)}
    (howner : ownerFrom types last (p ++ [.index i]) = some ⟨.connection, .bendPoints⟩)
    (hat : d.at? (p ++ [.index i]) = some (.mapping es))
    (hlacks : Assoc.get? "x" es = none ∨ Assoc.get? "y" es = none) :
    BearsOut types last d (p ++ [.index i]) .missingField
  /-- Something without the field stands one step above. -/
  | field {p : FaultPath} {name : String} {e : Document} (hat : d.at? p = some e)
    (hlacks : e.Lacks name) : BearsOut types last d (p ++ [.field name]) .missingField

variable {types types' : List EntityType} {last last' : Option ((t : EntityType) × t.layout.Field)}
  {d e : Document} {key : FaultKey} {p : FaultPath} {code : DiagnosticCode}

/-- What a child bears out, the document bears out. -/
theorem BearsOut.below (h : e.BearsOut types' last' p code) (hchild : d.child? key = some e)
    (howner : ∀ q, ownerFrom types last (key :: q) = ownerFrom types' last' q) :
    d.BearsOut types last (key :: p) code := by
  cases h with
  | value hat => exact .value ((at?_cons_of_child? hchild _).trans hat)
  | point howner' hat hlacks =>
      exact .point (p := key :: _) ((howner _).trans howner')
        ((at?_cons_of_child? hchild _).trans hat) hlacks
  | field hat hlacks =>
      exact .field (p := key :: _) ((at?_cons_of_child? hchild _).trans hat) hlacks

end Document

/-! ### Trees -/

/-- An error that does not say that a field is missing makes a value unusable. -/
theorem Fault.code_field {e : FieldError} (h : ∀ name, e ≠ .missing name) :
    (⟨.field e⟩ : Fault).code = .invalidValue := by
  cases e with
  | missing name => exact absurd rfl (h name)
  | mismatch | outOfRange | unknownVariant | invalidIdentifier => rfl

namespace FaultTree

/-- A document bears out all faults of a tree, and none of them is there from before. -/
def BorneOut (types : List EntityType) (last : Option ((t : EntityType) × t.layout.Field))
    (d : Document) (t : FaultTree) : Prop :=
  ∀ p fault, (p, fault) ∈ t.faults → .prior ∉ p ∧ d.BearsOut types last p fault.code

end FaultTree

open FaultTree (BorneOut)

/-! ### Errors of readers -/

/-- The errors of a field's readers say that a value is unusable, never that it is missing. Only a
point may lack a number. -/
def Shape.BlamesValue : (s : Shape) → s.Reader → Prop
  | required _, reader | optional _, reader => ∀ d name, reader d ≠ .error (.missing name)
  | @requiredPart _ _, reader | @optionalPart _ _, reader =>
    ∀ d name, tolerantly reader d ≠ .error (.missing name)
  | @parts _ _, reader | @namedParts _ _, reader =>
    ∀ d name, tolerantly reader.read d ≠ .error (.missing name)
  | list _, reader => ∀ d name, tolerantly reader.read d = .error (.missing name) →
    ∃ es, d = .mapping es ∧ (Assoc.get? "x" es = none ∨ Assoc.get? "y" es = none)

/-- No number of a pair is reported as missing. -/
theorem Document.pair_ne_missing (x y : Document) (name : String) :
    pair x y ≠ .error (.missing name) := by
  intro h
  rcases pair_eq_error h with hx | hy
  · exact x.asNumber_ne_missing _ _ _ hx
  · exact y.asNumber_ne_missing _ _ _ hy

/-- A point that is missing a number is a mapping without it. -/
theorem Document.lacks_of_asCoordinate {d : Document} {name : String}
    (h : d.asCoordinate = .error (.missing name)) :
    ∃ es, d = .mapping es ∧ (Assoc.get? "x" es = none ∨ Assoc.get? "y" es = none) := by
  rcases asCoordinate_eq_error h with ⟨_, _, heq⟩ | ⟨x, hx⟩ | ⟨es, name', hname, hd, hget, -⟩
  · cases heq
  · exact absurd hx (x.asNumber_ne_missing _ _ _)
  · refine ⟨es, hd, ?_⟩
    rcases List.mem_cons.mp hname with rfl | hname
    · exact Or.inl hget
    · exact Or.inr (List.mem_singleton.mp hname ▸ hget)

/-- Nothing in an entity is reported as missing by the error of the whole. -/
theorem Entity.tolerantly_read_ne_missing {E : Type} [Entity E]
    {readers : (Entity.layout E).Readers} (h : readers.Tolerate) (d : Document) (name : String) :
    tolerantly (Entity.read readers : BuildMode → Document → Reading E) d ≠
      .error (.missing name) := by
  intro he
  cases Entity.tolerantly_read_eq_error h he

/-- Nothing in a configuration is reported as missing by the error of the whole. -/
theorem Config.tolerantly_read_ne_missing (d : Document) (name : String) :
    tolerantly Config.read d ≠ .error (.missing name) := by
  intro he
  obtain ⟨expected, -, heq⟩ := Config.tolerantly_read_eq_error he
  cases heq

/-- The readers of all fields blame the value; that there is none is found by the build. -/
theorem EntityType.blamesValue (t : EntityType) (f : t.layout.Field) :
    (t.layout.shape f).BlamesValue (t.readers f) := by
  cases t with
  | workflow =>
      cases f with
      | name => exact Document.asString_ne_missing
      | nodes => exact Entity.tolerantly_read_ne_missing Node.readers_tolerate
      | connections => exact Entity.tolerantly_read_ne_missing Connection.readers_tolerate
      | annotations => exact Entity.tolerantly_read_ne_missing Annotation.readers_tolerate
  | node =>
      cases f with
      | id => exact Document.asNumber_ne_missing _ _
      | name => exact Document.asString_ne_missing
      | kind => exact Document.asNodeKind_ne_missing
      | bounds => exact Entity.tolerantly_read_ne_missing Bounds.readers_tolerate
      | inPorts | outPorts => exact Entity.tolerantly_read_ne_missing Port.readers_tolerate
      | modelSettings => exact Config.tolerantly_read_ne_missing
  | bounds => cases f <;> exact Document.asNumber_ne_missing _ _
  | port =>
      cases f with
      | index => exact Document.asNumber_ne_missing _ _
      | portType => exact Document.asPortType_ne_missing
      | name => exact Document.asString_ne_missing
  | connection =>
      cases f with
      | sourceId | sourcePort | destId | destPort => exact Document.asNumber_ne_missing _ _
      | deletable => exact Document.asBool_ne_missing
      | bendPoints => exact fun d name h => Document.lacks_of_asCoordinate h
  | annotation =>
      cases f with
      | text => exact Document.asString_ne_missing
      | bounds => exact Entity.tolerantly_read_ne_missing Bounds.readers_tolerate
      | borderSize => exact Document.asNumber_ne_missing _ _
  | configMap =>
      cases f with
      | children => exact Config.tolerantly_read_ne_missing
  | configValue =>
      cases f with
      | value => exact Document.asScalar_ne_missing

/-- Bend points are the only list of plain values. -/
theorem EntityType.eq_bendPoints (t : EntityType) (f : t.layout.Field) {α : Type}
    (h : t.layout.shape f = .list α) :
    (⟨t, f⟩ : (t : EntityType) × t.layout.Field) = ⟨.connection, .bendPoints⟩ := by
  cases t with
  | connection =>
      cases f with
      | bendPoints => rfl
      | sourceId | sourcePort | destId | destPort | deletable => cases h
  | workflow | node | bounds | port | annotation | configMap | configValue => cases f <;> cases h

/-! ### Loaded entities -/

namespace Shape

variable {s : Shape} {d : Document} {items : List (FaultKey × Document)}
  {item : FaultKey × Document}

/-- Members of lists stand at positions. -/
theorem index_of_mem_items {α : Type} (h : (list α).items? d = some items)
    (hitem : item ∈ items) : ∃ i, item.1 = .index i := by
  obtain ⟨ds, -, rfl⟩ := Option.map_eq_some_iff.mp h
  obtain ⟨e, -, rfl⟩ := List.mem_map.mp hitem
  exact ⟨e.2, rfl⟩

end Shape

/-- An entry that is refused by such a reader is reported as an invalid value. -/
theorem Shape.BlamesValue.code_of_refuses {s : Shape} {reader : s.Reader}
    (h : s.BlamesValue reader) {d : Document} {e : FieldError} (he : s.Refuses reader d e) :
    (⟨.field e⟩ : Fault).code = .invalidValue := by
  cases s with
  | required | optional | requiredPart | optionalPart =>
    exact Fault.code_field fun name heq => h d name (heq ▸ he)
  | list | parts | namedParts =>
    obtain ⟨-, rfl⟩ := he
    rfl

/-- A member that is turned down cannot be used, or is a bend point without one of its numbers. -/
theorem Shape.BlamesValue.bearsOut_member {s : Shape} {reader : s.Reader}
    (h : s.BlamesValue reader) {types : List EntityType}
    {last : Option ((t : EntityType) × t.layout.Field)}
    (hpoints : ∀ α, s = .list α → last = some ⟨.connection, .bendPoints⟩) {d : Document}
    {items : List (FaultKey × Document)} {item : FaultKey × Document} {e : FieldError}
    (hitems : s.items? d = some items) (hitem : item ∈ items)
    (hat : d.at? [item.1] = some item.2) (he : s.RefusesItem reader item.2 e) :
    d.BearsOut types last [item.1] (⟨.field e⟩ : Fault).code := by
  cases s with
  | required | optional | requiredPart | optionalPart => cases he
  | parts | namedParts =>
    rw [Fault.code_field fun name heq => h item.2 name (heq ▸ he)]
    exact .value hat
  | list α =>
    obtain ⟨i, hi⟩ := index_of_mem_items hitems hitem
    cases e with
    | missing name =>
      obtain ⟨es, hes, hlacks⟩ := h item.2 name he
      rw [hi, hes] at hat
      rw [hi]
      exact .point (p := []) (hpoints α rfl) hat hlacks
    | mismatch | outOfRange | unknownVariant | invalidIdentifier => exact .value hat

section

variable {types : List EntityType} {last : Option ((t : EntityType) × t.layout.Field)}
  {t u : EntityType} {es sub : List (String × Document)} {p : FaultPath} {e : FieldError}

/-- What is wrong with an entry is borne out by the entry. -/
theorem Shape.EntryError.bearsOut {f : t.layout.Field} {d : Document} (hd : d.WellFormed)
    (h : Shape.EntryError (t.parts f) (t.layout.shape f) (t.readers f) d p e) :
    .prior ∉ p ∧ d.BearsOut (t.parts f) (some ⟨t, f⟩) p (⟨.field e⟩ : Fault).code := by
  cases h with
  | entry h =>
    rw [(t.blamesValue f).code_of_refuses h]
    exact ⟨List.not_mem_nil, .value (Document.at?_nil d)⟩
  | @member items item e hitems hitem h =>
    obtain ⟨hchild, hprior, -⟩ := child?_of_mem_items hd hitems hitem
    have hat : d.at? [item.1] = some item.2 := Document.at?_cons_of_child? hchild []
    exact ⟨by simpa using hprior.symm, (t.blamesValue f).bearsOut_member
      (fun α hlist => congrArg some (t.eq_bendPoints f hlist)) hitems hitem hat h⟩
  | @standIn items item u name hitems hitem hu hname hlacks =>
    obtain ⟨hchild, hprior, -⟩ := child?_of_mem_items hd hitems hitem
    have hat : d.at? [item.1] = some item.2 := Document.at?_cons_of_child? hchild []
    exact ⟨by simpa using hprior.symm, .field (p := [item.1]) hat hlacks⟩

/-- A mapping bears out each error of the entity that is read from it. -/
theorem OwnError.bearsOut (hown : ∀ f, findField? types (t.layout.name f) = some ⟨t, f⟩)
    (hes : (Document.mapping es).WellFormed) (h : OwnError t es p e) :
    .prior ∉ p ∧ (Document.mapping es).BearsOut types last p (⟨.field e⟩ : Fault).code := by
  cases h with
  | missing _ hlacks =>
    exact ⟨by simp [Layout.key], .field (p := []) (Document.at?_nil _) hlacks⟩
  | @entry f d p e hpresent h =>
    have hd : d.WellFormed :=
      (Document.wellFormed_mapping.mp hes).2 _ (Document.mem_of_present? hpresent)
    have hchild : (Document.mapping es).child? (t.layout.key f) = some d :=
      (Option.filter_eq_some_iff.mp hpresent).1
    obtain ⟨hprior, hbears⟩ := h.bearsOut hd
    exact ⟨by simpa [Layout.key] using hprior,
      hbears.below hchild fun q => ownerFrom_field (hown f) last q⟩

/-- What an entity below bears out, the mapping does. -/
theorem StandsAt.bearsOut {front : FaultPath} (h : StandsAt t es front u sub)
    (hes : (Document.mapping es).WellFormed)
    (hown : ∀ f, findField? types (t.layout.name f) = some ⟨t, f⟩) {code : DiagnosticCode}
    (hsub : ∀ types last, (∀ f, findField? types (u.layout.name f) = some ⟨u, f⟩) →
      .prior ∉ p ∧ (Document.mapping sub).BearsOut types last p code) :
    .prior ∉ front ++ p ∧ (Document.mapping es).BearsOut types last (front ++ p) code := by
  -- types and last field change on the way to a part, so the induction is for all of them
  induction h generalizing types last with
  | root => exact hsub types last hown
  | @part t u v es sub target f front _ hfield htype _ ih =>
    have hsub' := (Document.wellFormed_mapping.mp hes).2 _ (Assoc.mem_of_get?_eq_some hfield)
    have hchild : (Document.mapping es).child? (t.layout.key f) = some (.mapping sub) := hfield
    obtain ⟨hprior, hbears⟩ : .prior ∉ front ++ p ∧
        (Document.mapping sub).BearsOut (t.parts f) (some ⟨t, f⟩) (front ++ p) code :=
      ih hsub' (t.findField?_parts f (List.mem_of_find?_eq_some htype)) hsub
    exact ⟨by simpa [Layout.key] using hprior,
      hbears.below hchild fun q => ownerFrom_field (hown f) last q⟩
  | @member t u v es sub target f d items key front hfield hitems hmem htype _ ih =>
    have hd : d.WellFormed :=
      (Document.wellFormed_mapping.mp hes).2 _ (Assoc.mem_of_get?_eq_some hfield)
    have hsub' : (Document.mapping sub).WellFormed := Shape.wellFormed_of_mem_items hd hitems hmem
    have hchild : (Document.mapping es).child? (t.layout.key f) = some d := hfield
    obtain ⟨hitem, hkey, howner⟩ := Shape.child?_of_mem_items hd hitems hmem
    obtain ⟨hprior, hbears⟩ : .prior ∉ front ++ p ∧
        (Document.mapping sub).BearsOut (t.parts f) (some ⟨t, f⟩) (front ++ p) code :=
      ih hsub' (t.findField?_parts f (List.mem_of_find?_eq_some htype)) hsub
    exact ⟨by simpa [Layout.key, hkey.symm] using hprior,
      (hbears.below hitem (howner _ _)).below hchild fun q => ownerFrom_field (hown f) last q⟩

end

/-- A mapping bears out the faults of the entity that is read from it. -/
theorem borneOut_loadedRecord {types : List EntityType} {t : EntityType}
    (hown : ∀ f, findField? types (t.layout.name f) = some ⟨t, f⟩)
    (last : Option ((t : EntityType) × t.layout.Field)) {es : List (String × Document)}
    (hes : (Document.mapping es).WellFormed) :
    BorneOut types last (.mapping es) (Layout.loadedRecord t.readers es).faults := by
  intro p fault hmem
  obtain ⟨e, rfl, front, rest, u, sub, rfl, hstands, herror⟩ := arises_of_mem_faults t hes hmem
  exact hstands.bearsOut hes hown fun types last hown' =>
    herror.bearsOut hown' (hstands.entityAt?_eq hes).2

/-! ### Diagnostics -/

/-- The tolerant load of a mapping succeeds, and each of its diagnostics points into the mapping: at
a value that cannot be used, at a bend point that lacks a number, or at a field of something that
has nothing for it. None points at the root or at a fault from before. -/
theorem diagnostics_point_into_document (source : String) {entries : List (String × Document)}
    (h : (Document.mapping entries).WellFormed) :
    ∃ l, LoadOptions.loadDocument ⟨source, .tolerant⟩ (.mapping entries) = .ok l ∧
      ∀ diagnostic ∈ l.diagnostics, ∃ p, diagnostic.position = .path p ∧ p ≠ [] ∧ .prior ∉ p ∧
        (Document.mapping entries).BearsOut [.workflow] none p diagnostic.code := by
  obtain ⟨w, hw, hload⟩ := LoadOptions.loadDocument_tolerant source entries
  rw [Workflow.read_tolerant] at hw
  cases hw
  have hborne : BorneOut [.workflow] none (.mapping entries)
      (Layout.loadedRecord Workflow.readers entries).faults :=
    borneOut_loadedRecord EntityType.workflow.owns.findField?_eq none h
  refine ⟨_, hload, fun diagnostic hdiagnostic => ?_⟩
  obtain ⟨⟨p, fault⟩, hmem, rfl⟩ := List.mem_map.mp hdiagnostic
  have hroot : p ≠ [] := by
    rcases FaultTree.mem_faults_merge hmem with ⟨-, hnone⟩ | ⟨c, -, rest, rfl, -⟩
    · cases hnone
    · exact List.cons_ne_nil _ _
  exact ⟨p, rfl, hroot, hborne p fault hmem⟩

/-- A workflow with a connection that has one end only and a bend point with one number only. -/
def halfPoint : List (String × Document) :=
  [("connections", .sequence [.mapping [("source_id", .integer 1), ("source_port", .integer 0),
    ("bend_points", .sequence [.mapping [("x", .integer 3)]])]])]

/-- The point is reported where it stands, and the other end where the connection stands. -/
theorem diagnostics_point_into_document_halfPoint :
    (Document.mapping halfPoint).WellFormed ∧
    ∃ l, LoadOptions.loadDocument ⟨"w", .tolerant⟩ (.mapping halfPoint) = .ok l ∧
      l.diagnostics.map (fun d => (d.position, d.code)) =
        [(.path [.field "connections", .index 0, .field "dest_id"], .missingField),
          (.path [.field "connections", .index 0, .field "dest_port"], .missingField),
          (.path [.field "connections", .index 0, .field "bend_points", .index 0],
            .missingField)] ∧
      ∀ diagnostic ∈ l.diagnostics, ∃ p, diagnostic.position = .path p ∧ p ≠ [] ∧ .prior ∉ p ∧
        (Document.mapping halfPoint).BearsOut [.workflow] none p diagnostic.code := by
  have hwf : (Document.mapping halfPoint).WellFormed := by
    simp [halfPoint, Document.WellFormed, Document.WellFormedEntries, Document.WellFormedItems,
      Assoc.keys]
  obtain ⟨l, hl, hpoint⟩ := diagnostics_point_into_document "w" hwf
  refine ⟨hwf, l, hl, ?_, hpoint⟩
  obtain rfl := Except.ok.inj hl
  rfl

end Flowsheet
