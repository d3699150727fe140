import Flowsheet.Assoc
import Flowsheet.Double.Basic

/-!
# Documents

The value that a text stands for: scalars, sequences, and mappings with texts as keys, in order.
Documents are compared (`==`) with numeric equality of floats and without regard to the order of a
mapping's entries. `WellFormed` documents have no repeated key.
-/

namespace Flowsheet

/-- A value read from a text. -/
inductive Document where
  /-- An explicit null or nothing at all. -/
  | null
  /-- A truth value. -/
  | bool (value : Bool)
  /-- A whole number of 64 bits. -/
  | integer (value : Int64)
  /-- A number with a fraction or an exponent. -/
  | float (value : Double)
  /-- A text. -/
  | string (value : String)
  /-- Values in order. -/
  | sequence (items : List Document)
  /-- Values under keys, in order. -/
  | mapping (entries : List (String × Document))

namespace Document

instance : Inhabited Document := ⟨null⟩

/-- The name of a value's shape in messages. -/
def kind : Document → String
  | null => "null"
  | bool _ => "bool"
  | integer _ => "integer"
  | float _ => "float"
  | string _ => "string"
  | sequence _ => "sequence"
  | mapping _ => "mapping"

/-- Whether this is the null value. -/
def isNull : Document → Bool
  | null => true
  | bool _ | integer _ | float _ | string _ | sequence _ | mapping _ => false

/-- The entries of a mapping. -/
def entries? : Document → Option (List (String × Document))
  | mapping entries => some entries
  | null | bool _ | integer _ | float _ | string _ | sequence _ => none

/-- The items of a sequence. -/
def items? : Document → Option (List Document)
  | sequence items => some items
  | null | bool _ | integer _ | float _ | string _ | mapping _ => none

/-! ### Nesting -/

mutual

/-- How deep mappings and sequences are nested; scalars have depth zero. -/
def depth : Document → Nat
  | null | bool _ | integer _ | float _ | string _ => 0
  | sequence items => depthItems items + 1
  | mapping entries => depthEntries entries + 1

/-- The greatest depth of some items. -/
def depthItems : List Document → Nat
  | [] => 0
  | d :: rest => max (depth d) (depthItems rest)

/-- The greatest depth of some entries' values. -/
def depthEntries : List (String × Document) → Nat
  | [] => 0
  | (_, d) :: rest => max (depth d) (depthEntries rest)

end

/-! ### Equality -/

mutual

/-- Same shape and equal content. -/
def same : Document → Document → Bool
  | null, null => true
  | bool a, bool b => a == b
  | integer a, integer b => a == b
  | float a, float b => a == b
  | string a, string b => a == b
  | sequence as, sequence bs => sameItems as bs
  | mapping as, mapping bs => as.length == bs.length && sameEntries as bs
  | _, _ => false

/-- Equal items in the same order. -/
def sameItems : List Document → List Document → Bool
  | [], [] => true
  | a :: as, b :: bs => same a b && sameItems as bs
  | _, _ => false

/-- Whether every entry of the first list has an equal one under its key in the second. -/
def sameEntries : List (String × Document) → List (String × Document) → Bool
  | [], _ => true
  | (key, a) :: rest, bs =>
    (match Assoc.get? key bs with
      | some b => same a b
      | none => false) && sameEntries rest bs

end

instance : BEq Document := ⟨same⟩

/-! ### Repeated keys -/

mutual

/-- No mapping has a key twice. -/
def WellFormed : Document → Prop
  | null | bool _ | integer _ | float _ | string _ => True
  | sequence items => WellFormedItems items
  | mapping entries => (Assoc.keys entries).Nodup ∧ WellFormedEntries entries

/-- No mapping in any of the items has a key twice. -/
def WellFormedItems : List Document → Prop
  | [] => True
  | d :: rest => WellFormed d ∧ WellFormedItems rest

/-- No mapping in any of the values has a key twice. -/
def WellFormedEntries : List (String × Document) → Prop
  | [] => True
  | (_, d) :: rest => WellFormed d ∧ WellFormedEntries rest

end

end Document

end Flowsheet
