import Flowsheet.Document.Basic

/-!
# Documents from events

A parser reports what it meets as an `Event`; `Document.ofEvent` keeps it as a document. A whole
number above the range of `Int64` is kept as the text of its digits. A repeated key keeps its first
place and its last value, so the result is always well formed. Bytes and wrapped values have no
place in a document.
-/

namespace Flowsheet

/-- What a parser met. -/
inductive Event where
  /-- Nothing, or an explicit null. -/
  | unit
  /-- An absent optional value. -/
  | none
  /-- A present optional value. -/
  | some (event : Event)
  /-- A value in a wrapper. -/
  | wrapped (event : Event)
  /-- A truth value. -/
  | bool (value : Bool)
  /-- A whole number with a sign. -/
  | signed (value : Int64)
  /-- A whole number without a sign. -/
  | unsigned (value : UInt64)
  /-- A number with a fraction or an exponent. -/
  | double (value : Double)
  /-- A text. -/
  | text (value : String)
  /-- Bytes. -/
  | bytes
  /-- Values in order. -/
  | sequence (items : List Event)
  /-- Values under keys, in order. -/
  | mapping (entries : List (String × Event))

/-- What has no place in a document. -/
inductive EventError where
  /-- Bytes. -/
  | bytes
  /-- A wrapped value. -/
  | wrapper
  deriving DecidableEq, Repr

/-- The wording of such an error. -/
def EventError.message : EventError → String
  | bytes => "invalid type: byte array, expected any YAML value"
  | wrapper => "invalid type: newtype struct, expected any YAML value"

namespace Document

/-- A number without a sign, as an integer where it fits and as its digits otherwise. -/
def ofUnsigned (value : UInt64) : Document :=
  if (value.toNat : Int) ≤ Int64.maxValue.toInt then integer (Int64.ofNat value.toNat)
  else string (toString value.toNat)

mutual

/-- The document that an event stands for. -/
def ofEvent : Event → Except EventError Document
  | .unit | .none => .ok null
  | .some event => ofEvent event
  | .wrapped _ => .error .wrapper
  | .bool value => .ok (bool value)
  | .signed value => .ok (integer value)
  | .unsigned value => .ok (ofUnsigned value)
  | .double value => .ok (float value)
  | .text value => .ok (string value)
  | .bytes => .error .bytes
  | .sequence items => (ofItems items).map sequence
  | .mapping entries => (ofEntries entries).map fun es => mapping (Assoc.ofList es)

/-- The documents of some events, or the first error among them. -/
def ofItems : List Event → Except EventError (List Document)
  | [] => .ok []
  | event :: rest => do
    let d ← ofEvent event
    return d :: (← ofItems rest)

/-- The documents of some entries, or the first error among them. -/
def ofEntries : List (String × Event) → Except EventError (List (String × Document))
  | [] => .ok []
  | (key, event) :: rest => do
    let d ← ofEvent event
    return (key, d) :: (← ofEntries rest)

end

end Document

end Flowsheet
