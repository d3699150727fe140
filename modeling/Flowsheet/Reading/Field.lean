import Flowsheet.Document.Basic
import Flowsheet.Model.Workflow

/-!
# Reading single values

What a document has to be to stand for a value of some type. Each reader gives the value, never a
coerced or truncated one, or the field error that says what is wrong.
-/

namespace Flowsheet.Document

/-- The error of a document that has another shape than is wanted. -/
def mismatch (expected : String) (d : Document) : FieldError := .mismatch expected d.kind

/-- The entries of a mapping. -/
def asEntries (d : Document) : Except FieldError (List (String × Document)) :=
  match d.entries? with
  | some entries => .ok entries
  | none => .error (d.mismatch "mapping")

/-- The items of a sequence. -/
def asItems (d : Document) : Except FieldError (List Document) :=
  match d.items? with
  | some items => .ok items
  | none => .error (d.mismatch "sequence")

/-- A whole number that `narrow` accepts; `target` names its type. -/
def asNumber {α : Type} (narrow : Int64 → Option α) (target : String) :
    Document → Except FieldError α
  | .integer value =>
    match narrow value with
    | some n => .ok n
    | none => .error (.outOfRange (toString value.toInt) target)
  | d => .error (d.mismatch "integer")

/-- The number as one of 32 bits with a sign, if it fits. -/
def narrowSigned (value : Int64) : Option Int32 :=
  if Int32.minValue.toInt ≤ value.toInt ∧ value.toInt ≤ Int32.maxValue.toInt then
    some (Int32.ofInt value.toInt)
  else none

/-- The number as one of 32 bits without a sign, if it fits. -/
def narrowUnsigned (value : Int64) : Option UInt32 :=
  if 0 ≤ value.toInt ∧ value.toInt < UInt32.size then
    some (UInt32.ofNat value.toInt.toNat)
  else none

/-- A whole number of 32 bits. -/
def asInt32 : Document → Except FieldError Int32 := asNumber narrowSigned "i32"

/-- A whole number of 32 bits without a sign. -/
def asUInt32 : Document → Except FieldError UInt32 := asNumber narrowUnsigned "u32"

/-- A truth value. -/
def asBool : Document → Except FieldError Bool
  | .bool value => .ok value
  | d => .error (d.mismatch "bool")

/-- A text. -/
def asString : Document → Except FieldError String
  | .string value => .ok value
  | d => .error (d.mismatch "string")

/-- A port type id. -/
def asPortType (d : Document) : Except FieldError PortType := d.asString.bind PortType.ofText

/-- A kind of node. -/
def asNodeKind (d : Document) : Except FieldError NodeKind := d.asString.bind NodeKind.ofText

/-- The entry of a mapping that has to have it; a null counts as an entry. -/
def entry (name : String) (entries : List (String × Document)) : Except FieldError Document :=
  match Assoc.get? name entries with
  | some d => .ok d
  | none => .error (.missing name)

/-- Two whole numbers as a point. -/
def pair (x y : Document) : Except FieldError Coordinate := do
  return ⟨← x.asInt32, ← y.asInt32⟩

/-- A point, as a sequence of two numbers or as a mapping with `x` and `y`. -/
def asCoordinate : Document → Except FieldError Coordinate
  | .sequence [x, y] => pair x y
  | .sequence _ => .error (.mismatch "pair of integers" "sequence")
  | .mapping entries => do
    let x ← entry "x" entries
    let y ← entry "y" entries
    pair x y
  | d => .error (d.mismatch "coordinate")

/-- A value of a configuration. -/
def asScalar : Document → Except FieldError Scalar
  | .bool value => .ok (.bool value)
  | .integer value => .ok (.int value)
  | .float value => .ok (.double value)
  | .string value => .ok (.string value)
  | d => .error (d.mismatch "scalar")

end Flowsheet.Document
