import Flowsheet.Build.Layout

/-!
# Connections

A connection leads from an output port of one node to an input port of another, with bends on the
way.
-/

namespace Flowsheet

/-- A point on the canvas. -/
structure Coordinate where
  /-- Pixels from the left. -/
  x : Int32
  /-- Pixels from above. -/
  y : Int32
  deriving DecidableEq, Repr

/-- The upper left corner. -/
def Coordinate.origin : Coordinate := ⟨0, 0⟩

/-- One connection. -/
structure Connection where
  /-- The node where it begins. -/
  sourceId : Option Int32
  /-- The port where it begins. -/
  sourcePort : Option UInt32
  /-- The node where it ends. -/
  destId : Option Int32
  /-- The port where it ends. -/
  destPort : Option UInt32
  /-- Whether it may be deleted, if that is said. -/
  deletable : Option Bool
  /-- Where it bends. -/
  bendPoints : List Coordinate
  /-- What fell back. -/
  faults : FaultTree
  deriving BEq

namespace Connection

/-- The fields of a connection. -/
inductive Field where
  | sourceId | sourcePort | destId | destPort | deletable | bendPoints
  deriving DecidableEq, Repr

/-- Four required numbers, an optional flag and a list of points. -/
@[reducible] def layout : Layout where
  entity := "ConnectionDef"
  Field := Field
  fields := [.sourceId, .sourcePort, .destId, .destPort, .deletable, .bendPoints]
  mem_fields f := by cases f <;> decide
  nodup_fields := by decide
  name
    | .sourceId => "source_id"
    | .sourcePort => "source_port"
    | .destId => "dest_id"
    | .destPort => "dest_port"
    | .deletable => "deletable"
    | .bendPoints => "bend_points"
  name_injective f g := by cases f <;> cases g <;> simp
  shape
    | .sourceId | .destId => .required Int32
    | .sourcePort | .destPort => .required UInt32
    | .deletable => .optional Bool
    | .bendPoints => .list Coordinate

instance : Entity Connection where
  layout := layout
  toRecord c :=
    { get := fun
        | .sourceId => c.sourceId
        | .sourcePort => c.sourcePort
        | .destId => c.destId
        | .destPort => c.destPort
        | .deletable => c.deletable
        | .bendPoints => c.bendPoints
      faults := c.faults }
  ofRecord r :=
    ⟨r.get .sourceId, r.get .sourcePort, r.get .destId, r.get .destPort, r.get .deletable,
      r.get .bendPoints, r.faults⟩
  ofRecord_toRecord _ := rfl
  toRecord_ofRecord r := by
    obtain ⟨get, faults⟩ := r
    congr
    funext f
    cases f <;> rfl

end Connection

end Flowsheet
