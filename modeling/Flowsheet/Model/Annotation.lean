import Flowsheet.Model.Bounds

/-!
# Annotations

Text that is drawn on the canvas.
-/

namespace Flowsheet

/-- One annotation. -/
structure Annotation where
  /-- The text. -/
  text : Option String
  /-- Where it is drawn. -/
  bounds : Option Bounds
  /-- The width of its border, if that is said. -/
  borderSize : Option Int32
  /-- What fell back. -/
  faults : FaultTree
  deriving BEq

namespace Annotation

/-- The fields of an annotation. -/
inductive Field where
  | text | bounds | borderSize
  deriving DecidableEq, Repr

/-- A required text, a required rectangle and an optional number. -/
@[reducible] def layout : Layout where
  entity := "AnnotationDef"
  Field := Field
  fields := [.text, .bounds, .borderSize]
  mem_fields f := by cases f <;> decide
  nodup_fields := by decide
  name
    | .text => "text"
    | .bounds => "bounds"
    | .borderSize => "border_size"
  name_injective f g := by cases f <;> cases g <;> simp
  shape
    | .text => .required String
    | .bounds => .requiredPart Bounds
    | .borderSize => .optional Int32

instance : Entity Annotation where
  layout := layout
  toRecord a :=
    { get := fun
        | .text => a.text
        | .bounds => a.bounds
        | .borderSize => a.borderSize
      faults := a.faults }
  ofRecord r := ⟨r.get .text, r.get .bounds, r.get .borderSize, r.faults⟩
  ofRecord_toRecord _ := rfl
  toRecord_ofRecord r := by
    obtain ⟨get, faults⟩ := r
    congr
    funext f
    cases f <;> rfl

end Annotation

end Flowsheet
