import Flowsheet.Model.Bounds
import Flowsheet.Model.Config
import Flowsheet.Model.Port

/-!
# Nodes

The steps of a workflow, with their ports and settings.
-/

namespace Flowsheet

/-- The kinds of nodes. -/
inductive NodeKind where
  /-- A step of its own. -/
  | native
  /-- A nested workflow that acts as one step. -/
  | component
  /-- A nested workflow that only groups steps. -/
  | metanode
  deriving DecidableEq, Repr

namespace NodeKind

/-- The written form of a kind. -/
def text : NodeKind → String
  | native => "NATIVENODE"
  | component => "COMPONENT"
  | metanode => "METANODE"

/-- The kind that a text names, exactly as it is written. -/
def ofText (text : String) : Except FieldError NodeKind :=
  if text = "NATIVENODE" then .ok native
  else if text = "COMPONENT" then .ok component
  else if text = "METANODE" then .ok metanode
  else .error (.unknownVariant "node kind" text)

theorem ofText_text (k : NodeKind) : ofText k.text = .ok k := by
  cases k <;> simp [ofText, text]

end NodeKind

/-- One node. -/
structure Node where
  /-- Its number in the workflow. -/
  id : Option Int32
  /-- What it is called. -/
  name : Option String
  /-- Its kind. -/
  kind : Option NodeKind
  /-- Where it is drawn, if anywhere. -/
  bounds : Option Bounds
  /-- Where data comes in. -/
  inPorts : List Port
  /-- Where data goes out. -/
  outPorts : List Port
  /-- Its settings, if it has any. -/
  modelSettings : Option Config
  /-- What fell back. -/
  faults : FaultTree
  deriving BEq

namespace Node

/-- The fields of a node. -/
inductive Field where
  | id | name | kind | bounds | inPorts | outPorts | modelSettings
  deriving DecidableEq, Repr

/-- A required number, name and kind, and optional parts. -/
@[reducible] def layout : Layout where
  entity := "NodeDef"
  Field := Field
  fields := [.id, .name, .kind, .bounds, .inPorts, .outPorts, .modelSettings]
  mem_fields f := by cases f <;> decide
  nodup_fields := by decide
  name
    | .id => "id"
    | .name => "name"
    | .kind => "kind"
    | .bounds => "bounds"
    | .inPorts => "in_ports"
    | .outPorts => "out_ports"
    | .modelSettings => "model_settings"
  name_injective f g := by cases f <;> cases g <;> simp
  shape
    | .id => .required Int32
    | .name => .required String
    | .kind => .required NodeKind
    | .bounds => .optionalPart Bounds
    | .inPorts | .outPorts => .parts Port
    | .modelSettings => .optionalPart Config

instance : Entity Node where
  layout := layout
  toRecord n :=
    { get := fun
        | .id => n.id
        | .name => n.name
        | .kind => n.kind
        | .bounds => n.bounds
        | .inPorts => n.inPorts
        | .outPorts => n.outPorts
        | .modelSettings => n.modelSettings
      faults := n.faults }
  ofRecord r :=
    ⟨r.get .id, r.get .name, r.get .kind, r.get .bounds, r.get .inPorts, r.get .outPorts,
      r.get .modelSettings, r.faults⟩
  ofRecord_toRecord _ := rfl
  toRecord_ofRecord r := by
    obtain ⟨get, faults⟩ := r
    congr
    funext f
    cases f <;> rfl

end Node

end Flowsheet
