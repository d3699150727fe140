import Flowsheet.Proofs.Reading.Errors

/-!
# How diagnostics are written

The text of a diagnostic quotes the document in two places: the path shows keys of maps, and the
message shows a text that is no kind of node or no port type. Nothing quoted is escaped, and nothing
else in a diagnostic comes from the document but shapes and numbers. So a diagnostic is one line
unless one of these is not (`diagnostic_breaks_iff`), and it shows its own path and no other unless
a key of a map spells out the way to another place (`diagnostic_paths_alike_iff`).
-/

namespace Flowsheet

open EntityType

/-! ### Messages -/

namespace FieldError

/-- What the wording of an error is put together from. -/
def texts : FieldError → List String
  | missing field => [field]
  | mismatch expected found => [expected, found]
  | outOfRange value target => [value, target]
  | unknownVariant kind value => [kind, value]
  | invalidIdentifier identifier reason => [identifier, reason]

/-- The wording has line breaks only from these texts. -/
theorem hasBreak_message (e : FieldError) :
    HasBreak e.message ↔ ∃ text ∈ e.texts, HasBreak text := by
  have hfixed : ∀ s ∈ ["required field '", "' is missing", "expected ", ", found ", "value ",
      " is out of range for ", "unknown ", " '", "'", "invalid identifier '", "': "],
      ¬ HasBreak s := by
    decide +kernel
  simp only [List.forall_mem_cons] at hfixed
  unfold message
  cases e <;> simp [texts, hfixed]

/-- A wording put together from texts of one line is of one line. -/
theorem not_hasBreak_message {e : FieldError} (h : ∀ text ∈ e.texts, ¬ HasBreak text) :
    ¬ HasBreak e.message := by
  intro hbreak
  obtain ⟨text, htext, hbreak⟩ := e.hasBreak_message.mp hbreak
  exact h text htext hbreak

end FieldError

/-- Numbers with a sign are written on one line. -/
theorem not_hasBreak_toString_int (i : Int) : ¬ HasBreak (toString i) := by
  cases i with
  | ofNat n => exact not_hasBreak_repr n
  | negSucc n =>
    have hminus : ¬ HasBreak "-" := not_hasBreak_ofList (by decide)
    show ¬ HasBreak ("-" ++ (n + 1).repr)
    simp [hminus]

/-- The names of shapes are of one line. -/
theorem Document.not_hasBreak_kind (d : Document) : ¬ HasBreak d.kind := by
  cases d <;> exact not_hasBreak_ofList (by decide)

/-! ### Errors of one line -/

/-- All errors of a reader have messages of one line. -/
def Unbroken {α : Type} (read : Document → Except FieldError α) : Prop :=
  ∀ d e, read d = .error e → ¬ HasBreak e.message

/-- To say that a document has the wrong shape takes one line. -/
theorem Document.not_hasBreak_mismatch {expected : String} (h : ¬ HasBreak expected)
    (d : Document) : ¬ HasBreak (d.mismatch expected).message :=
  FieldError.not_hasBreak_message (List.forall_mem_cons.mpr ⟨h,
    List.forall_mem_singleton.mpr d.not_hasBreak_kind⟩)

/-- A reader that only says what shape it wants is unbroken. -/
theorem unbroken_of_mismatch {α : Type} {read : Document → Except FieldError α} (expected : String)
    (hexpected : ¬ HasBreak expected) (h : ∀ d e, read d = .error e → e = d.mismatch expected) :
    Unbroken read := by
  intro d e he
  rw [h d e he]
  exact d.not_hasBreak_mismatch hexpected

namespace Document

/-- The reader of texts says nothing else. -/
theorem unbroken_asString : Unbroken asString :=
  unbroken_of_mismatch "string" (not_hasBreak_ofList (by decide)) fun d e he => by
    cases d <;> cases he <;> rfl

/-- Nor does that of truth values. -/
theorem unbroken_asBool : Unbroken asBool :=
  unbroken_of_mismatch "bool" (not_hasBreak_ofList (by decide)) fun d e he => by
    cases d <;> cases he <;> rfl

/-- Nor does that of plain settings. -/
theorem unbroken_asScalar : Unbroken asScalar :=
  unbroken_of_mismatch "scalar" (not_hasBreak_ofList (by decide)) fun d e he => by
    cases d <;> cases he <;> rfl

/-- A number that is out of range is shown by its digits. -/
theorem unbroken_asNumber {α : Type} (narrow : Int64 → Option α) {target : String}
    (htarget : ¬ HasBreak target) : Unbroken (asNumber narrow target) := by
  intro d e he
  unfold asNumber at he
  split at he
  · split at he
    · cases he
    · cases he
      exact FieldError.not_hasBreak_message (List.forall_mem_cons.mpr
        ⟨not_hasBreak_toString_int _, List.forall_mem_singleton.mpr htarget⟩)
  · cases he
    exact d.not_hasBreak_mismatch (not_hasBreak_ofList (by decide))

/-- In particular a signed one. -/
theorem unbroken_asInt32 : Unbroken asInt32 :=
  unbroken_asNumber _ (not_hasBreak_ofList (by decide))

/-- And an unsigned one. -/
theorem unbroken_asUInt32 : Unbroken asUInt32 :=
  unbroken_asNumber _ (not_hasBreak_ofList (by decide))

/-- A point is of the wrong shape, has a number that cannot be read, or lacks one. -/
theorem unbroken_asCoordinate : Unbroken asCoordinate := by
  intro d e he
  rcases asCoordinate_eq_error he with ⟨expected, hexpected, rfl⟩ | ⟨x, hx⟩ |
    ⟨es, name, hname, -, -, rfl⟩
  · have hshapes : ∀ expected ∈ ["coordinate", "pair of integers"], ¬ HasBreak expected := by
      decide +kernel
    exact d.not_hasBreak_mismatch (hshapes expected hexpected)
  · exact unbroken_asInt32 x e hx
  · have hnames : ∀ name ∈ ["x", "y"], ¬ HasBreak name := by decide
    exact FieldError.not_hasBreak_message (List.forall_mem_singleton.mpr (hnames name hname))

end Document

/-- What is no mapping is reported by its shape; all other errors of an entity are those of its
fields. -/
theorem Entity.unbroken_read {E : Type} [Entity E] {readers : (Entity.layout E).Readers}
    (h : readers.Tolerate) :
    Unbroken (tolerantly (Entity.read readers : BuildMode → Document → Reading E)) :=
  unbroken_of_mismatch "mapping" (not_hasBreak_ofList (by decide)) fun _ _ he =>
    Entity.tolerantly_read_eq_error h he

/-- The same for configurations, which may also have neither children nor a value. -/
theorem Config.unbroken_read : Unbroken (tolerantly Config.read) := by
  intro d e he
  obtain ⟨expected, hexpected, rfl⟩ := Config.tolerantly_read_eq_error he
  have hshapes : ∀ expected ∈ ["mapping", "config entry with 'children' or 'value'"],
      ¬ HasBreak expected := by
    decide +kernel
  exact d.not_hasBreak_mismatch (hshapes expected hexpected)

/-! ### Errors that quote the document -/

/-- A reader of texts: its errors quote the text, and add no line break to it. -/
def Quotes {α : Type} (read : Document → Except FieldError α) : Prop :=
  ∀ d e, read d = .error e → (HasBreak e.message ↔ ∃ text, d = .string text ∧ HasBreak text)

/-- What reads a text further, when a text is there. -/
theorem quotes_bind_asString {α : Type} {ofText : String → Except FieldError α}
    (h : ∀ text e, ofText text = .error e → (HasBreak e.message ↔ HasBreak text)) :
    Quotes fun d => d.asString.bind ofText := by
  intro d e (he : d.asString.bind ofText = .error e)
  cases hd : d.asString with
  | error e' =>
    rw [hd] at he
    cases he
    refine iff_of_false (Document.unbroken_asString d e hd) ?_
    rintro ⟨text, rfl, -⟩
    cases hd
  | ok text =>
    rw [hd] at he
    obtain rfl : d = .string text := by
      cases d <;> cases hd
      rfl
    rw [h text e he]
    exact ⟨fun hbreak => ⟨text, rfl, hbreak⟩, fun ⟨_, heq, hbreak⟩ =>
      Document.string.inj heq ▸ hbreak⟩

/-- A kind of node that is unknown is quoted as it stands. -/
theorem quotes_asNodeKind : Quotes Document.asNodeKind := by
  refine quotes_bind_asString fun text e he => ?_
  have hkind : ¬ HasBreak "node kind" := not_hasBreak_ofList (by decide)
  unfold NodeKind.ofText at he
  split at he
  · cases he
  · split at he
    · cases he
    · split at he
      · cases he
      · cases he
        simp [FieldError.hasBreak_message, FieldError.texts, hkind]

/-- A word has no line break. -/
theorem PortType.IsWord.not_hasBreak {segment : String} (h : IsWord segment) :
    ¬ HasBreak segment := by
  obtain ⟨c, rest, hsegment, hc, hrest⟩ := h
  refine not_hasBreak_of_all (p := isPart) (fun d hd => (isPart_iff d).mpr ?_) (by decide)
  rw [hsegment] at hd
  rcases List.mem_cons.mp hd with rfl | hd
  · exact hc.imp_right Or.inr
  · exact hrest d hd

/-- The reason against a segment is a fixed text, or names a reserved word. -/
theorem PortType.Flaw.not_hasBreak {segment reason : String} (h : Flaw segment reason) :
    ¬ HasBreak reason := by
  cases h with
  | empty => exact not_hasBreak_ofList (by decide)
  | characters =>
    rw [hasBreak_append, not_or]
    exact ⟨not_hasBreak_ofList (by decide), not_hasBreak_ofList (by decide)⟩
  | reserved hword =>
    have hleft : ¬ HasBreak "segment '" := not_hasBreak_ofList (by decide)
    have hright : ¬ HasBreak "' is a Java reserved word" := not_hasBreak_ofList (by decide)
    simp only [hasBreak_append, hleft, hword.not_hasBreak, hright, or_self, not_false_eq_true]

/-- So the reason against a text is of one line, whatever the text is. -/
theorem PortType.Refused.not_hasBreak {text reason : String} (h : Refused text reason) :
    ¬ HasBreak reason := by
  cases h with
  | empty => exact not_hasBreak_ofList (by decide)
  | part _ _ _ hflaw => exact hflaw.not_hasBreak

/-- A port type that is refused is quoted as it stands. -/
theorem quotes_asPortType : Quotes Document.asPortType := by
  refine quotes_bind_asString fun text e he => ?_
  unfold PortType.ofText at he
  split at he
  next reason hreason =>
    cases he
    have hplain := ((PortType.problem?_eq_some_iff text reason).mp hreason).not_hasBreak
    simp [FieldError.hasBreak_message, FieldError.texts, hplain]
  next => cases he

/-! ### Errors of one field -/

/-- All errors of a field's readers have messages of one line. -/
def Shape.Unbroken : (s : Shape) → s.Reader → Prop
  | required _, reader | optional _, reader => Flowsheet.Unbroken reader
  | @requiredPart _ _, reader | @optionalPart _ _, reader => Flowsheet.Unbroken (tolerantly reader)
  | list _, reader | @parts _ _, reader | @namedParts _ _, reader =>
    Flowsheet.Unbroken (tolerantly reader.read)

/-- The names of the two kinds of collections are of one line. -/
theorem Shape.not_hasBreak_wanted (s : Shape) : ¬ HasBreak s.wanted := by
  cases s <;> exact not_hasBreak_ofList (by decide)

/-- An entry that is refused by unbroken readers is reported on one line. -/
theorem Shape.Unbroken.of_refuses {s : Shape} {reader : s.Reader} (h : s.Unbroken reader)
    {d : Document} {e : FieldError} (he : s.Refuses reader d e) : ¬ HasBreak e.message := by
  cases s with
  | required | optional | requiredPart | optionalPart => exact h d e he
  | list | parts | namedParts =>
    obtain ⟨-, rfl⟩ := he
    exact d.not_hasBreak_mismatch (not_hasBreak_wanted _)

/-- So is a member that is refused. -/
theorem Shape.Unbroken.of_refusesItem {s : Shape} {reader : s.Reader} (h : s.Unbroken reader)
    {d : Document} {e : FieldError} (he : s.RefusesItem reader d e) : ¬ HasBreak e.message := by
  cases s with
  | required | optional | requiredPart | optionalPart => cases he
  | list | parts | namedParts => exact h d e he

/-- The fields whose texts are quoted when they are no variant or no identifier. -/
def quotedFields : List String := ["kind", "port_type"]

/-- All fields but the two that quote texts have unbroken readers. -/
theorem EntityType.unbroken (t : EntityType) (f : t.layout.Field)
    (hname : t.layout.name f ∉ quotedFields) : (t.layout.shape f).Unbroken (t.readers f) := by
  cases t with
  | workflow =>
    cases f with
    | name => exact Document.unbroken_asString
    | nodes => exact Entity.unbroken_read Node.readers_tolerate
    | connections => exact Entity.unbroken_read Connection.readers_tolerate
    | annotations => exact Entity.unbroken_read Annotation.readers_tolerate
  | node =>
    cases f with
    | id => exact Document.unbroken_asInt32
    | name => exact Document.unbroken_asString
    | kind => exact absurd (by decide) hname
    | bounds => exact Entity.unbroken_read Bounds.readers_tolerate
    | inPorts | outPorts => exact Entity.unbroken_read Port.readers_tolerate
    | modelSettings => exact Config.unbroken_read
  | bounds => cases f <;> exact Document.unbroken_asInt32
  | port =>
    cases f with
    | index => exact Document.unbroken_asUInt32
    | portType => exact absurd (by decide) hname
    | name => exact Document.unbroken_asString
  | connection =>
    cases f with
    | sourceId | destId => exact Document.unbroken_asInt32
    | sourcePort | destPort => exact Document.unbroken_asUInt32
    | deletable => exact Document.unbroken_asBool
    | bendPoints => exact Document.unbroken_asCoordinate
  | annotation =>
    cases f with
    | text => exact Document.unbroken_asString
    | bounds => exact Entity.unbroken_read Bounds.readers_tolerate
    | borderSize => exact Document.unbroken_asInt32
  | configMap =>
    cases f with
    | children => exact Config.unbroken_read
  | configValue =>
    cases f with
    | value => exact Document.unbroken_asScalar

/-- The fields of these names are the kind of a node and the type of a port. -/
theorem EntityType.eq_of_mem_quotedFields (t : EntityType) (f : t.layout.Field)
    (hname : t.layout.name f ∈ quotedFields) :
    (⟨t, f⟩ : (t : EntityType) × t.layout.Field) = ⟨.node, .kind⟩ ∨
      (⟨t, f⟩ : (t : EntityType) × t.layout.Field) = ⟨.port, .portType⟩ := by
  cases t with
  | node =>
    cases f with
    | kind => exact Or.inl rfl
    | id | name | bounds | inPorts | outPorts | modelSettings => exact absurd hname (by decide)
  | port =>
    cases f with
    | portType => exact Or.inr rfl
    | index | name => exact absurd hname (by decide)
  | workflow | bounds | connection | annotation | configMap | configValue =>
    cases f <;> exact absurd hname (by decide)

/-- The message for an entry that is turned down has a line break just if it quotes one. -/
theorem EntityType.hasBreak_of_refuses (t : EntityType) (f : t.layout.Field) {d : Document}
    {e : FieldError} (h : (t.layout.shape f).Refuses (t.readers f) d e) :
    HasBreak e.message ↔
      t.layout.name f ∈ quotedFields ∧ ∃ text, d = .string text ∧ HasBreak text := by
  by_cases hname : t.layout.name f ∈ quotedFields
  · rw [and_iff_right hname]
    rcases t.eq_of_mem_quotedFields f hname with heq | heq
    · cases heq
      exact quotes_asNodeKind d e h
    · cases heq
      exact quotes_asPortType d e h
  · exact iff_of_false ((t.unbroken f hname).of_refuses h) fun hquoted => hname hquoted.1

/-- Members of lists and maps are never quoted, since the fields that quote are plain. -/
theorem EntityType.not_hasBreak_of_refusesItem (t : EntityType) (f : t.layout.Field) {d : Document}
    {e : FieldError} (h : (t.layout.shape f).RefusesItem (t.readers f) d e) :
    ¬ HasBreak e.message := by
  by_cases hname : t.layout.name f ∈ quotedFields
  · -- neither field is a list or map
    rcases t.eq_of_mem_quotedFields f hname with heq | heq
    · cases heq
      cases h
    · cases heq
      cases h
  · exact (t.unbroken f hname).of_refusesItem h

/-! ### Errors below a mapping -/

namespace Document

/-- The path ends at a field whose texts are quoted, and the document has a text of more than one
line there. -/
def QuotesBreak (d : Document) (p : FaultPath) : Prop :=
  ∃ name ∈ quotedFields, p.getLast? = some (.field name) ∧
    ∃ text, d.at? p = some (.string text) ∧ HasBreak text

/-- What has nothing for a field has no text there. -/
theorem Lacks.at?_ne_string {d : Document} {name : String} (h : d.Lacks name) (text : String) :
    d.at? [.field name] ≠ some (.string text) := by
  intro hat
  cases d with
  | mapping entries =>
    have hget : (Assoc.get? name entries).bind (fun e => e.at? []) = some (.string text) := hat
    rcases h entries rfl with hnone | hnull
    · rw [hnone] at hget
      cases hget
    · rw [hnull] at hget
      cases hget
  | null | bool | integer | float | string | sequence => cases hat

end Document

/-- The message for an error of an entity has a line break just if it quotes one. -/
theorem OwnError.hasBreak_message_iff {t : EntityType} {es : List (String × Document)}
    (hes : (Document.mapping es).WellFormed) {p : FaultPath} {e : FieldError}
    (h : OwnError t es p e) : HasBreak e.message ↔ (Document.mapping es).QuotesBreak p := by
  cases h with
  | @missing f _ hlacks =>
    have hname := (t.isFieldName f).not_hasBreak
    refine iff_of_false (FieldError.not_hasBreak_message (List.forall_mem_singleton.mpr hname)) ?_
    rintro ⟨name, -, -, text, hat, -⟩
    exact hlacks.at?_ne_string text hat
  | @entry f d p e hpresent h =>
    have hd : d.WellFormed :=
      (Document.wellFormed_mapping.mp hes).2 _ (Document.mem_of_present? hpresent)
    have hchild : (Document.mapping es).child? (t.layout.key f) = some d :=
      (Option.filter_eq_some_iff.mp hpresent).1
    have hat : ∀ q, (Document.mapping es).at? (t.layout.key f :: q) = d.at? q :=
      Document.at?_cons_of_child? hchild
    cases h with
    | entry h =>
      rw [t.hasBreak_of_refuses f h]
      constructor
      · rintro ⟨hname, text, rfl, hbreak⟩
        exact ⟨_, hname, rfl, text, hat [], hbreak⟩
      · rintro ⟨name, hname, hlast, text, htext, hbreak⟩
        obtain rfl := FaultKey.field.inj (Option.some.inj hlast)
        rw [hat, Document.at?_nil] at htext
        exact ⟨hname, text, Option.some.inj htext, hbreak⟩
    | @member items item e hitems hitem h =>
      refine iff_of_false (t.not_hasBreak_of_refusesItem f h) ?_
      rintro ⟨name, -, hlast, -⟩
      -- the last key is that of a member
      have hkey : item.1 = .field name := Option.some.inj hlast
      rcases Shape.items?_cases hitems with ⟨ds, -, rfl⟩ | ⟨entries, -, rfl⟩
      · obtain ⟨x, -, rfl⟩ := List.mem_map.mp hitem
        cases hkey
      · obtain ⟨x, -, rfl⟩ := List.mem_map.mp hitem
        cases hkey
    | @standIn items item u name hitems hitem hu hname hlacks =>
      have hplain := (u.isFieldName_of_mem_requiredNames hname).not_hasBreak
      refine iff_of_false
        (FieldError.not_hasBreak_message (List.forall_mem_singleton.mpr hplain)) ?_
      rintro ⟨name', -, -, text, htext, -⟩
      rw [hat, Document.at?_cons_of_child? (Shape.child?_of_mem_items hd hitems hitem).1] at htext
      exact hlacks.at?_ne_string text htext

/-- Every error in an entity is at a field of it or below. -/
theorem OwnError.ne_nil {t : EntityType} {es : List (String × Document)} {p : FaultPath}
    {e : FieldError} (h : OwnError t es p e) : p ≠ [] := by
  cases h <;> exact List.cons_ne_nil _ _

/-- The message for an error below a mapping has a line break just if it quotes one. -/
theorem Arises.hasBreak_message_iff {t : EntityType} {es : List (String × Document)}
    (hes : (Document.mapping es).WellFormed) {p : FaultPath} {e : FieldError}
    (h : Arises t es p e) : HasBreak e.message ↔ (Document.mapping es).QuotesBreak p := by
  obtain ⟨front, rest, u, sub, rfl, hstands, herror⟩ := h
  rw [herror.hasBreak_message_iff (hstands.entityAt?_eq hes).2]
  unfold Document.QuotesBreak
  rw [hstands.at?_append hes, List.getLast?_append_of_ne_nil _ herror.ne_nil]

/-! ### Texts that are no documents -/

/-- What stands before the first line break begins the text, and has no line feed. -/
theorem beforeBreak_spec (cs : List Char) : beforeBreak cs <+: cs ∧ '\n' ∉ beforeBreak cs := by
  induction cs using beforeBreak.induct with
  | case1 => exact ⟨List.nil_prefix, List.not_mem_nil⟩
  | case2 rest => exact ⟨List.nil_prefix, List.not_mem_nil⟩
  | case3 rest => exact ⟨List.nil_prefix, List.not_mem_nil⟩
  | case4 c rest hfeed hreturn ih =>
    rw [beforeBreak.eq_4 c rest hfeed hreturn]
    refine ⟨List.cons_prefix_cons.mpr ⟨rfl, ih.1⟩, fun hmem => ?_⟩
    rcases List.mem_cons.mp hmem with hc | hrest
    · exact hfeed hc.symm
    · exact ih.2 hrest

/-- A text that a parser refuses is reported with the first line of what the parser says: with a
beginning of it that has no line feed. -/
theorem LoadOptions.loadTextBy_of_error (o : LoadOptions) {parse : Parser} {text : String}
    {e : ParseError} (h : parse text = .error e) :
    ∃ d, o.loadTextBy parse text = .error (.unreadable e.message (some d)) ∧
      d.code = .parseFailure ∧ d.source = o.source ∧
      d.message.toList <+: e.message.toList ∧ '\n' ∉ d.message.toList := by
  have hline := beforeBreak_spec e.message.toList
  rw [← String.toList_ofList (l := beforeBreak e.message.toList)] at hline
  unfold loadTextBy
  rw [h]
  exact ⟨_, rfl, rfl, rfl, hline⟩

/-- A carriage return before the line feed belongs to the break. -/
example : firstLine "no\r\nyes" = "no" := by decide

/-! ### Diagnostics -/

/-- Codes are written on one line. -/
theorem DiagnosticCode.not_hasBreak_text (code : DiagnosticCode) : ¬ HasBreak code.text := by
  cases code <;> exact not_hasBreak_ofList (by decide)

/-- The diagnostics of a tolerant load are written as the errors of the load. -/
theorem exists_arises_of_mem_diagnostics (source : String) {entries : List (String × Document)}
    (h : (Document.mapping entries).WellFormed) :
    ∃ l, LoadOptions.loadDocument ⟨source, .tolerant⟩ (.mapping entries) = .ok l ∧
      ∀ diagnostic ∈ l.diagnostics, ∃ p e, Arises .workflow entries p e ∧
        diagnostic = ⟨(⟨.field e⟩ : Fault).code, source, .path p, e.message⟩ := by
  obtain ⟨w, hw, hload⟩ := LoadOptions.loadDocument_tolerant source entries
  rw [Workflow.read_tolerant] at hw
  cases hw
  refine ⟨_, hload, fun diagnostic hdiagnostic => ?_⟩
  obtain ⟨⟨p, fault⟩, hmem, rfl⟩ := List.mem_map.mp hdiagnostic
  obtain ⟨e, rfl, harises⟩ := arises_of_mem_faults .workflow h hmem
  exact ⟨p, e, harises, rfl⟩

/-- The text of a diagnostic of a tolerant load is one line, unless the label of the text is more
than one line, or the path goes through a key of a map that is, or the diagnostic quotes such a
text. -/
theorem diagnostic_breaks_iff (source : String) {entries : List (String × Document)}
    (h : (Document.mapping entries).WellFormed) :
    ∃ l, LoadOptions.loadDocument ⟨source, .tolerant⟩ (.mapping entries) = .ok l ∧
      ∀ diagnostic ∈ l.diagnostics, ∃ p, diagnostic.position = .path p ∧
        (HasBreak diagnostic.text ↔ HasBreak source ∨ (∃ k, .key k ∈ p ∧ HasBreak k) ∨
          (Document.mapping entries).QuotesBreak p) := by
  have hbar : ¬ HasBreak " | " := not_hasBreak_ofList (by decide)
  have hmark : ¬ HasBreak "#" := not_hasBreak_ofList (by decide)
  obtain ⟨l, hload, hdiagnostics⟩ := exists_arises_of_mem_diagnostics source h
  refine ⟨l, hload, fun diagnostic hdiagnostic => ?_⟩
  obtain ⟨p, e, harises, rfl⟩ := hdiagnostics diagnostic hdiagnostic
  refine ⟨p, rfl, ?_⟩
  simp only [Diagnostic.text, hasBreak_append, DiagnosticCode.not_hasBreak_text, hbar, hmark,
    false_or, or_false, FaultPath.hasBreak_text harises.named, harises.hasBreak_message_iff h,
    or_assoc]

/-- A workflow with a number for its name, a node without a kind under a key of two lines, and a
node whose kind is a text of two lines. -/
def twoLineFlow : List (String × Document) :=
  [("name", .integer 1),
    ("nodes", .mapping [
      ("a\nb", .mapping [("id", .integer 1), ("name", .string "n")]),
      ("c", .mapping [("id", .integer 2), ("name", .string "n"), ("kind", .string "x\ny")])])]

/-- No mapping in this workflow has a key twice. -/
theorem wellFormed_twoLineFlow : (Document.mapping twoLineFlow).WellFormed := by
  simp [twoLineFlow, Document.WellFormed, Document.WellFormedEntries, Assoc.keys]

/-- The number is reported on one line, what the first node lacks and the kind of the other on
two. -/
theorem diagnostic_breaks_iff_twoLineFlow :
    (Document.mapping twoLineFlow).WellFormed ∧
    ∃ l, LoadOptions.loadDocument ⟨"w", .tolerant⟩ (.mapping twoLineFlow) = .ok l ∧
      l.diagnostics.map (fun d => decide (HasBreak d.text)) =
        [false, true, true] ∧
      ∀ diagnostic ∈ l.diagnostics, ∃ p, diagnostic.position = .path p ∧
        (HasBreak diagnostic.text ↔ HasBreak "w" ∨ (∃ k, .key k ∈ p ∧ HasBreak k) ∨
          (Document.mapping twoLineFlow).QuotesBreak p) := by
  obtain ⟨l, hl, hbreaks⟩ := diagnostic_breaks_iff "w" wellFormed_twoLineFlow
  refine ⟨wellFormed_twoLineFlow, l, hl, ?_, hbreaks⟩
  obtain rfl := Except.ok.inj hl
  decide +kernel

/-- Not every diagnostic is written on one line: a key with a line break is shown as it is. -/
theorem not_diagnostics_unbroken :
    ¬ ∀ (source : String) (entries : List (String × Document)) (l : Loaded),
      ¬ HasBreak source → (Document.mapping entries).WellFormed →
      LoadOptions.loadDocument ⟨source, .tolerant⟩ (.mapping entries) = .ok l →
      ∀ diagnostic ∈ l.diagnostics, ¬ HasBreak diagnostic.text := by
  intro hclaim
  have hlines := hclaim "w" [("nodes", .mapping [("a\nb", .null)])] _ (by decide)
    (by simp [Document.WellFormed, Document.WellFormedEntries, Assoc.keys]) rfl
  exact absurd hlines (by decide +kernel)

/-- Two diagnostics of a tolerant load show the same path just if they are at the same path, or the
key of a map in one path goes on behind the quote and bracket that close the key in the other, with
all that the other path still says. So no two paths without quote and bracket in a key are shown
alike. -/
theorem diagnostic_paths_alike_iff (source : String) {entries : List (String × Document)}
    (h : (Document.mapping entries).WellFormed) :
    ∃ l, LoadOptions.loadDocument ⟨source, .tolerant⟩ (.mapping entries) = .ok l ∧
      ∀ a ∈ l.diagnostics, ∀ b ∈ l.diagnostics, ∃ p q, a.position = .path p ∧
        b.position = .path q ∧ (p.text = q.text ↔ p = q ∨ p.Overruns q ∨ q.Overruns p) ∧
        (p.Closed → q.Closed → p ≠ q → p.text ≠ q.text) := by
  obtain ⟨l, hload, hdiagnostics⟩ := exists_arises_of_mem_diagnostics source h
  refine ⟨l, hload, fun a ha b hb => ?_⟩
  obtain ⟨p, e, hp, rfl⟩ := hdiagnostics a ha
  obtain ⟨q, e', hq, rfl⟩ := hdiagnostics b hb
  exact ⟨p, q, rfl, rfl, FaultPath.text_eq_iff hp.named hq.named, fun hpc hqc hne htext =>
    hne (FaultPath.text_injOn_closed hp.named hq.named hpc hqc htext)⟩

/-- A workflow with two nodes: one with a null among its settings, and a null under a key that is
written like the way to those settings. -/
def mimicFlow : List (String × Document) :=
  [("nodes", .mapping [
    ("n", .mapping [("model_settings", .mapping [("children", .mapping [("c", .null)])])]),
    ("n'].model_settings.children['c", .null)])]

/-- No mapping in this workflow has a key twice. -/
theorem wellFormed_mimicFlow : (Document.mapping mimicFlow).WellFormed := by
  simp [mimicFlow, Document.WellFormed, Document.WellFormedEntries, Assoc.keys]

/-- The way to the null among the settings. -/
def settingPath : FaultPath :=
  [.field "nodes", .key "n", .field "model_settings", .field "children", .key "c"]

/-- The way to the other null, which is written alike. -/
def mimicPath : FaultPath := [.field "nodes", .key "n'].model_settings.children['c"]

/-- Both nulls are reported, at different paths that are written alike. -/
theorem diagnostic_paths_alike_iff_mimicFlow :
    (Document.mapping mimicFlow).WellFormed ∧
    ∃ l, LoadOptions.loadDocument ⟨"w", .tolerant⟩ (.mapping mimicFlow) = .ok l ∧
      .path settingPath ∈ l.diagnostics.map (·.position) ∧
      .path mimicPath ∈ l.diagnostics.map (·.position) ∧
      settingPath ≠ mimicPath ∧ settingPath.text = mimicPath.text ∧
      ∀ a ∈ l.diagnostics, ∀ b ∈ l.diagnostics, ∃ p q, a.position = .path p ∧
        b.position = .path q ∧ (p.text = q.text ↔ p = q ∨ p.Overruns q ∨ q.Overruns p) ∧
        (p.Closed → q.Closed → p ≠ q → p.text ≠ q.text) := by
  obtain ⟨l, hl, halike⟩ := diagnostic_paths_alike_iff "w" wellFormed_mimicFlow
  refine ⟨wellFormed_mimicFlow, l, hl, ?_, ?_, by decide, by decide +kernel, halike⟩
  · obtain rfl := Except.ok.inj hl
    decide +kernel
  · obtain rfl := Except.ok.inj hl
    decide +kernel

/-- Diagnostics at different paths may show the same path. -/
theorem not_diagnostic_paths_distinct :
    ¬ ∀ (source : String) (entries : List (String × Document)) (l : Loaded),
      (Document.mapping entries).WellFormed →
      LoadOptions.loadDocument ⟨source, .tolerant⟩ (.mapping entries) = .ok l →
      ∀ a ∈ l.diagnostics, ∀ b ∈ l.diagnostics, ∀ p q, a.position = .path p →
        b.position = .path q → p ≠ q → p.text ≠ q.text := by
  intro hclaim
  have halike := hclaim "w" mimicFlow _ wellFormed_mimicFlow rfl
    ⟨.invalidValue, "w", .path settingPath, "expected mapping, found null"⟩ (by decide +kernel)
    ⟨.invalidValue, "w", .path mimicPath, "expected mapping, found null"⟩ (by decide +kernel)
    settingPath mimicPath rfl rfl (by decide)
  exact absurd (by decide +kernel) halike

end Flowsheet
