import Flowsheet.Model.Annotation
import Flowsheet.Model.Connection
import Flowsheet.Model.Node

/-!
# Workflows

Nodes under the caller's keys, the connections between them, and annotations. Workflows are
compared (`==`) without regard to the order of their nodes.
-/

namespace Flowsheet

/-- A workflow. -/
structure Workflow where
  /-- What it is called, if anything. -/
  name : Option String
  /-- The nodes in order. -/
  nodes : List (String × Node)
  /-- The connections in order. -/
  connections : List Connection
  /-- The annotations in order. -/
  annotations : List Annotation
  /-- What fell back. -/
  faults : FaultTree

namespace Workflow

instance : BEq Workflow where
  beq a b :=
    a.name == b.name && Assoc.same a.nodes b.nodes && a.connections == b.connections
      && a.annotations == b.annotations && a.faults == b.faults

/-- The node under a key. -/
def node? (key : String) (w : Workflow) : Option Node := Assoc.get? key w.nodes

/-- The fields of a workflow. -/
inductive Field where
  | name | nodes | connections | annotations
  deriving DecidableEq, Repr

/-- An optional name, named nodes and two lists. -/
@[reducible] def layout : Layout where
  entity := "WorkflowDef"
  Field := Field
  fields := [.name, .nodes, .connections, .annotations]
  mem_fields f := by cases f <;> decide
  nodup_fields := by decide
  name
    | .name => "name"
    | .nodes => "nodes"
    | .connections => "connections"
    | .annotations => "annotations"
  name_injective f g := by cases f <;> cases g <;> simp
  shape
    | .name => .optional String
    | .nodes => .namedParts Node
    | .connections => .parts Connection
    | .annotations => .parts Annotation

instance : Entity Workflow where
  layout := layout
  toRecord w :=
    { get := fun
        | .name => w.name
        | .nodes => w.nodes
        | .connections => w.connections
        | .annotations => w.annotations
      faults := w.faults }
  ofRecord r := ⟨r.get .name, r.get .nodes, r.get .connections, r.get .annotations, r.faults⟩
  ofRecord_toRecord _ := rfl
  toRecord_ofRecord r := by
    obtain ⟨get, faults⟩ := r
    congr
    funext f
    cases f <;> rfl

end Workflow

end Flowsheet
