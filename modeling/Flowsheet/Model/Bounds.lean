import Flowsheet.Build.Layout

/-!
# Bounds

The rectangle that something takes up on the canvas.
-/

namespace Flowsheet

/-- A rectangle in pixels. -/
structure Bounds where
  /-- The left edge. -/
  x : Option Int32
  /-- The upper edge. -/
  y : Option Int32
  /-- The width. -/
  width : Option Int32
  /-- The height. -/
  height : Option Int32
  /-- What fell back. -/
  faults : FaultTree
  deriving BEq

namespace Bounds

/-- The fields of a rectangle. -/
inductive Field where
  | x | y | width | height
  deriving DecidableEq, Repr

/-- Four required numbers. -/
@[reducible] def layout : Layout where
  entity := "BoundsDef"
  Field := Field
  fields := [.x, .y, .width, .height]
  mem_fields f := by cases f <;> decide
  nodup_fields := by decide
  name
    | .x => "x"
    | .y => "y"
    | .width => "width"
    | .height => "height"
  name_injective f g := by cases f <;> cases g <;> simp
  shape
    | .x | .y | .width | .height => .required Int32

instance : Entity Bounds where
  layout := layout
  toRecord b :=
    { get := fun
        | .x => b.x
        | .y => b.y
        | .width => b.width
        | .height => b.height
      faults := b.faults }
  ofRecord r := ⟨r.get .x, r.get .y, r.get .width, r.get .height, r.faults⟩
  ofRecord_toRecord _ := rfl
  toRecord_ofRecord r := by
    obtain ⟨get, faults⟩ := r
    congr
    funext f
    cases f <;> rfl

end Bounds

end Flowsheet
