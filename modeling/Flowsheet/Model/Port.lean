import Flowsheet.Build.Layout
import Flowsheet.Model.PortType

/-!
# Ports

The places where connections meet a node.
-/

namespace Flowsheet

/-- One port of a node. -/
structure Port where
  /-- Its number among the node's ports of its side. -/
  index : Option UInt32
  /-- What passes through it. -/
  portType : Option PortType
  /-- What it is called, if anything. -/
  name : Option String
  /-- What fell back. -/
  faults : FaultTree
  deriving BEq

namespace Port

/-- The fields of a port. -/
inductive Field where
  | index | portType | name
  deriving DecidableEq, Repr

/-- A required number and type, and an optional name. -/
@[reducible] def layout : Layout where
  entity := "PortDef"
  Field := Field
  fields := [.index, .portType, .name]
  mem_fields f := by cases f <;> decide
  nodup_fields := by decide
  name
    | .index => "index"
    | .portType => "port_type"
    | .name => "name"
  name_injective f g := by cases f <;> cases g <;> simp
  shape
    | .index => .required UInt32
    | .portType => .required PortType
    | .name => .optional String

instance : Entity Port where
  layout := layout
  toRecord p :=
    { get := fun
        | .index => p.index
        | .portType => p.portType
        | .name => p.name
      faults := p.faults }
  ofRecord r := ⟨r.get .index, r.get .portType, r.get .name, r.faults⟩
  ofRecord_toRecord _ := rfl
  toRecord_ofRecord r := by
    obtain ⟨get, faults⟩ := r
    congr
    funext f
    cases f <;> rfl

end Port

end Flowsheet
