import Flowsheet.Build.Builder
import Flowsheet.Document.Basic
import Flowsheet.Reading.Field

/-!
# Reading entities

An entity is read from a mapping field by field in the order of its layout. A field whose entry is
absent or null gets no setter call; any other entry is handed to the setter together with what
reading it came to, so that a bad value becomes a fault or ends a strict build.

Reading a part may end the build (the outer error of `Reading`) or find that the document cannot be
such a part at all (the inner error), which its parent records.
-/

namespace Flowsheet

/-- What reading a part comes to. -/
abbrev Reading (α : Type) := Except BuildError (Except FieldError α)

/-- How the items of a list or map are read, and what stands in for one that cannot be read. -/
structure ItemReader (α : Type) where
  /-- Reads one item. -/
  read : BuildMode → Document → Reading α
  /-- Stands in for an item that cannot be read. -/
  fallback : α

/-- A supply that failed or succeeded with a field error. -/
def supplyOf {α : Type} (r : Except FieldError α) : Except Cause α := r.mapError Cause.field

namespace Shape

/-- How a field of a shape is read. -/
@[reducible] def Reader : Shape → Type
  | required α | optional α => Document → Except FieldError α
  | @requiredPart α _ | @optionalPart α _ => BuildMode → Document → Reading α
  | list α | @parts α _ | @namedParts α _ => ItemReader α

/-- Reads the entry of a field and makes the setter calls that it comes to. -/
def read (scope : Scope) (key : FaultKey) :
    (s : Shape) → s.Reader → Document → s.Slot → Except BuildError s.Slot
  | required α, reader, d, slot =>
    apply scope key (required α) (.supply (supplyOf (reader d)) none) slot
  | optional α, reader, d, slot =>
    apply scope key (optional α) (.supply ((supplyOf (reader d)).map some) none) slot
  | @requiredPart α i, reader, d, slot => do
    let r ← reader scope.mode d
    apply scope key (@requiredPart α i) (.supply (supplyOf r) none) slot
  | @optionalPart α i, reader, d, slot => do
    let r ← reader scope.mode d
    apply scope key (@optionalPart α i) (.supply ((supplyOf r).map some) none) slot
  | list α, reader, d, slot =>
    match d.asItems with
    | .ok items =>
      items.foldlM (fun slot item => do
        let r ← reader.read scope.mode item
        apply scope key (list α) (.supplyOne (supplyOf r) reader.fallback) slot) slot
    | .error e => apply scope key (list α) (.supplyAll (.error (.field e)) []) slot
  | @parts α i, reader, d, slot =>
    match d.asItems with
    | .ok items =>
      items.foldlM (fun slot item => do
        let r ← reader.read scope.mode item
        apply scope key (@parts α i) (.supplyOne (supplyOf r) reader.fallback) slot) slot
    | .error e => apply scope key (@parts α i) (.supplyAll (.error (.field e)) []) slot
  | @namedParts α i, reader, d, slot =>
    match d.asEntries with
    | .ok entries =>
      entries.foldlM (fun slot e => do
        let r ← reader.read scope.mode e.2
        apply scope key (@namedParts α i) (.supplyOne e.1 (supplyOf r) reader.fallback) slot) slot
    | .error e => apply scope key (@namedParts α i) (.supplyAll (.error (.field e)) []) slot

end Shape

/-- The entry of a field, unless it is null. -/
def Document.present? (name : String) (entries : List (String × Document)) : Option Document :=
  (Assoc.get? name entries).filter fun d => !d.isNull

/-- How each field of a layout is read. -/
abbrev Layout.Readers (L : Layout) := (f : L.Field) → (L.shape f).Reader

namespace Builder

variable {L : Layout}

/-- Reads one field from the entries of a mapping. -/
def readField (readers : L.Readers) (entries : List (String × Document)) (b : Builder L)
    (f : L.Field) : Except BuildError (Builder L) :=
  match Document.present? (L.name f) entries with
  | none => .ok b
  | some d =>
    ((L.shape f).read b.scope (L.key f) (readers f) d (b.slot f)).map (b.setSlot f)

/-- Reads all fields from the entries of a mapping. -/
def readFields (readers : L.Readers) (entries : List (String × Document)) (b : Builder L) :
    Except BuildError (Builder L) :=
  L.fields.foldlM (readField readers entries) b

end Builder

namespace Entity

variable {E : Type} [Entity E]

/-- Reads an entity from the entries of a mapping. -/
def readEntries (readers : (layout E).Readers) (mode : BuildMode)
    (entries : List (String × Document)) : Except BuildError E := do
  let b ← (Builder.new (layout E) mode).readFields readers entries
  b.finish

/-- Reads an entity from a document, which has to be a mapping. -/
def read (readers : (layout E).Readers) (mode : BuildMode) (d : Document) : Reading E :=
  match d.asEntries with
  | .ok entries => (readEntries readers mode entries).map .ok
  | .error e => .ok (.error e)

end Entity

end Flowsheet
