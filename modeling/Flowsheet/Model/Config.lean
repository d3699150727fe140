import Flowsheet.Build.Layout
import Flowsheet.Double.Shortest

/-!
# Configurations

A configuration is a value, or a map of named configurations. Every level has its own fault tree, so
a bad value deep inside is found under its own path.

`ConfigMap` and `ConfigValue` are the two kinds as entities; `Config` is either. Configurations are
compared (`==`) without regard to the order of a map's entries.
-/

namespace Flowsheet

/-! ### Values -/

/-- A value with its type. -/
inductive Scalar where
  /-- A truth value. -/
  | bool (value : Bool)
  /-- A whole number. -/
  | int (value : Int64)
  /-- A number with a fraction or an exponent. -/
  | double (value : Double)
  /-- A text. -/
  | string (value : String)
  deriving BEq

namespace Scalar

/-- The name of a value's type. -/
def typeName : Scalar → String
  | bool _ => "bool"
  | int _ => "int"
  | double _ => "double"
  | string _ => "string"

/-- The written form of a value. -/
def text : Scalar → String
  | bool value => if value then "true" else "false"
  | int value => toString value.toInt
  | double value => value.text
  | string value => value

end Scalar

/-! ### Either kind -/

/-- A configuration. -/
inductive Config where
  /-- Named configurations in order. -/
  | map (children : List (String × Config)) (faults : FaultTree)
  /-- A single value. -/
  | value (value : Option Scalar) (faults : FaultTree)

namespace Config

/-- A map without children. -/
def emptyMap : Config := map [] .empty

instance : Inhabited Config := ⟨emptyMap⟩

/-- The tree of either kind. -/
def faults : Config → FaultTree
  | map _ faults => faults
  | value _ faults => faults

/-- The same configuration with another tree. -/
def withFaults (t : FaultTree) : Config → Config
  | map children _ => map children t
  | value v _ => value v t

instance : HasFaults Config where
  faults := faults
  withFaults := withFaults
  faults_withFaults t c := by cases c <;> rfl

/-- The named configurations of a map. -/
def children? : Config → Option (List (String × Config))
  | map children _ => some children
  | value _ _ => none

/-- The configuration that some keys lead to through nested maps. -/
def lookup (c : Config) : List String → Option Config
  | [] => some c
  | key :: rest => (c.children?.bind (Assoc.get? key)).bind (fun d => d.lookup rest)

mutual

/-- The same kind with equal content and equal faults. -/
def same : Config → Config → Bool
  | map as s, map bs t => as.length == bs.length && sameChildren as bs && s == t
  | value a s, value b t => a == b && s == t
  | _, _ => false

/-- Whether every child in the first list has an equal one under its key in the second. -/
def sameChildren : List (String × Config) → List (String × Config) → Bool
  | [], _ => true
  | (key, a) :: rest, bs =>
    (match Assoc.get? key bs with
      | some b => same a b
      | none => false) && sameChildren rest bs

end

instance : BEq Config := ⟨same⟩

end Config

/-! ### Maps -/

/-- A map of named configurations. -/
structure ConfigMap where
  /-- The configurations in order. -/
  children : List (String × Config)
  /-- What fell back. -/
  faults : FaultTree

namespace ConfigMap

/-- A map without children. -/
def empty : ConfigMap := ⟨[], .empty⟩

/-- The map as a configuration. -/
def toConfig (m : ConfigMap) : Config := .map m.children m.faults

instance : BEq ConfigMap := ⟨fun a b => a.toConfig == b.toConfig⟩

/-- The fields of a map. -/
inductive Field where
  | children
  deriving DecidableEq, Repr

/-- Configurations under the caller's keys. -/
@[reducible] def layout : Layout where
  entity := "ConfigMapDef"
  Field := Field
  fields := [.children]
  mem_fields f := by cases f; decide
  nodup_fields := by decide
  name
    | .children => "children"
  name_injective f g := by cases f; cases g; simp
  shape
    | .children => .namedParts Config

instance : Entity ConfigMap where
  layout := layout
  toRecord m :=
    { get := fun
        | .children => m.children
      faults := m.faults }
  ofRecord r := ⟨r.get .children, r.faults⟩
  ofRecord_toRecord _ := rfl
  toRecord_ofRecord _ := rfl

end ConfigMap

/-! ### Single values -/

/-- A single value. -/
structure ConfigValue where
  /-- The value. -/
  value : Option Scalar
  /-- What fell back. -/
  faults : FaultTree
  deriving BEq

namespace ConfigValue

/-- The value as a configuration. -/
def toConfig (v : ConfigValue) : Config := .value v.value v.faults

/-- The fields of a value. -/
inductive Field where
  | value
  deriving DecidableEq, Repr

/-- One required value. -/
@[reducible] def layout : Layout where
  entity := "ConfigValueDef"
  Field := Field
  fields := [.value]
  mem_fields f := by cases f; decide
  nodup_fields := by decide
  name
    | .value => "value"
  name_injective f g := by cases f; cases g; simp
  shape
    | .value => .required Scalar

instance : Entity ConfigValue where
  layout := layout
  toRecord v :=
    { get := fun
        | .value => v.value
      faults := v.faults }
  ofRecord r := ⟨r.get .value, r.faults⟩
  ofRecord_toRecord _ := rfl
  toRecord_ofRecord _ := rfl

end ConfigValue

end Flowsheet
