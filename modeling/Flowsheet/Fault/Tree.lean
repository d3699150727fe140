import Flowsheet.Assoc
import Flowsheet.Fault.Cause

/-!
# Fault trees

Which parts of a value fell back to a default, and why. A tree is `empty`, a `leaf` with one fault,
or a `node` with an optional fault of its own and named children. `merge` builds nodes and keeps
them canonical: no empty child, and no node without any fault. `inject` adds a fault to the root
and keeps an earlier fault of the root below `FaultKey.prior`.

`faults` lists every fault with its path, a node's own fault before those of its children. Trees
are compared (`==`) by their faults' messages, and the order of children does not count.
-/

namespace Flowsheet

/-- The faults of a value and of everything below it. -/
inductive FaultTree where
  /-- Nothing fell back. -/
  | empty
  /-- One fault of a field without parts. -/
  | leaf (fault : Fault)
  /-- The fault of a container, if it has one, and the trees of its faulty parts. -/
  | node (own : Option Fault) (children : List (FaultKey × FaultTree))

namespace FaultTree

instance : Inhabited FaultTree := ⟨empty⟩

/-! ### Building -/

/-- Whether nothing fell back. -/
def isEmpty : FaultTree → Bool
  | empty => true
  | leaf _ | node _ _ => false

/-- Whether anything fell back. -/
def hasFaults (t : FaultTree) : Bool := !t.isEmpty

/-- A node, or `empty` where a node would hold no fault. -/
def ofParts (own : Option Fault) (children : List (FaultKey × FaultTree)) : FaultTree :=
  if own.isNone && children.isEmpty then empty else node own children

/-- The tree of a container: empty trees drop out, and of two trees for one key the later counts,
at the place of the earlier. -/
def merge (own : Option Fault) (children : List (FaultKey × FaultTree)) : FaultTree :=
  ofParts own (Assoc.ofList (children.filter (fun c => c.2.hasFaults)))

/-- The tree of a value whose required fields `names` were never given. -/
def missing (names : List String) : FaultTree :=
  merge none (names.map fun name => (.field name, leaf (Fault.missing name)))

/-- The children below `FaultKey.prior` once `fault` moves there: what was there before hangs below
it. -/
def history (fault : Fault) (earlier : FaultTree) : FaultTree :=
  if earlier.isEmpty then leaf fault else merge (some fault) [(.prior, earlier)]

/-- Adds a fault to the root. The root's earlier fault moves to the child `FaultKey.prior`, which
becomes the last child; other children stay. -/
def inject (fault : Fault) : FaultTree → FaultTree
  | empty => ofParts (some fault) []
  | leaf old => ofParts (some fault) [(.prior, leaf old)]
  | node none children => ofParts (some fault) children
  | node (some old) children =>
    let earlier := (Assoc.get? .prior children).getD empty
    ofParts (some fault) (Assoc.insert .prior (history old earlier) (Assoc.erase .prior children))

/-! ### Views -/

/-- A container's own fault. -/
def selfFault? : FaultTree → Option Fault
  | node own _ => own
  | empty | leaf _ => none

/-- The fault of a leaf. -/
def leafFault? : FaultTree → Option Fault
  | leaf fault => some fault
  | empty | node _ _ => none

/-- The fault at the root, of a leaf or of a container. -/
def fault? : FaultTree → Option Fault
  | leaf fault => some fault
  | node own _ => own
  | empty => none

/-- The named children in order. -/
def children : FaultTree → List (FaultKey × FaultTree)
  | node _ children => children
  | empty | leaf _ => []

/-- The tree of one child. -/
def child? (key : FaultKey) (t : FaultTree) : Option FaultTree := Assoc.get? key t.children

/-- The tree of one field. -/
def field? (name : String) (t : FaultTree) : Option FaultTree := t.child? (.field name)

/-- The tree of one field, empty if the field has no fault. -/
def subtree (name : String) (t : FaultTree) : FaultTree := (t.field? name).getD empty

/-- The tree at the end of a path. -/
def at? (t : FaultTree) : FaultPath → Option FaultTree
  | [] => some t
  | key :: rest => (t.child? key).bind (fun c => c.at? rest)

mutual

/-- Every fault with its path, depth first, a container's own fault before its children's. -/
def faults : FaultTree → List (FaultPath × Fault)
  | empty => []
  | leaf fault => [([], fault)]
  | node own children => own.toList.map (fun fault => ([], fault)) ++ faultsBelow children

/-- Every fault of a list of children, each path led by the child's key. -/
def faultsBelow : List (FaultKey × FaultTree) → List (FaultPath × Fault)
  | [] => []
  | (key, t) :: rest => (faults t).map (fun e => (key :: e.1, e.2)) ++ faultsBelow rest

end

mutual

/-- The number of faults. -/
def len : FaultTree → Nat
  | empty => 0
  | leaf _ => 1
  | node own children => own.toList.length + lenBelow children

/-- The number of faults of a list of children. -/
def lenBelow : List (FaultKey × FaultTree) → Nat
  | [] => 0
  | (_, t) :: rest => len t + lenBelow rest

end

/-! ### Equality -/

mutual

/-- Same constructor, equal faults, and children that are equal as mappings. -/
def same : FaultTree → FaultTree → Bool
  | empty, empty => true
  | leaf a, leaf b => a == b
  | node a as, node b bs => a == b && as.length == bs.length && sameBelow as bs
  | _, _ => false

/-- Whether every child in the first list has an equal one under its key in the second. -/
def sameBelow : List (FaultKey × FaultTree) → List (FaultKey × FaultTree) → Bool
  | [], _ => true
  | (key, t) :: rest, bs =>
    (match Assoc.get? key bs with
      | some u => same t u
      | none => false) && sameBelow rest bs

end

instance : BEq FaultTree := ⟨same⟩

/-! ### Small laws -/

@[simp] theorem isEmpty_empty : empty.isEmpty = true := rfl

@[simp] theorem at?_nil (t : FaultTree) : t.at? [] = some t := by
  cases t <;> rfl

theorem at?_cons (t : FaultTree) (key : FaultKey) (rest : FaultPath) :
    t.at? (key :: rest) = (t.child? key).bind (fun c => c.at? rest) := rfl

theorem selfFault?_inject (fault : Fault) (t : FaultTree) :
    (t.inject fault).selfFault? = some fault := by
  rcases t with _ | _ | ⟨_ | _, _⟩ <;> rfl

theorem hasFaults_inject (fault : Fault) (t : FaultTree) : (t.inject fault).hasFaults = true := by
  rcases t with _ | _ | ⟨_ | _, _⟩ <;> rfl

end FaultTree

/-! ### Values that carry their faults -/

/-- Values that hold the fault tree of themselves and of everything below them. -/
class HasFaults (α : Type) where
  /-- The faults of a value. -/
  faults : α → FaultTree
  /-- The same value with other faults. -/
  withFaults : FaultTree → α → α
  /-- What was written is what is read. -/
  faults_withFaults : ∀ t a, faults (withFaults t a) = t

/-- The value with one more fault at the root of its tree. -/
def HasFaults.mark {α : Type} [HasFaults α] (fault : Fault) (a : α) : α :=
  withFaults ((faults a).inject fault) a

/-- Whether a value or anything below it fell back. -/
def HasFaults.isFaulty {α : Type} [HasFaults α] (a : α) : Bool := (faults a).hasFaults

/-- The faulty values of a list with their places; `offset` is the place of the first. -/
def HasFaults.faultyFrom {α : Type} [HasFaults α] (offset : Nat) : List α → List (Nat × α)
  | [] => []
  | a :: rest => (if isFaulty a then [(offset, a)] else []) ++ faultyFrom (offset + 1) rest

/-- The faulty values of a list with their places. -/
def HasFaults.faultyItems {α : Type} [HasFaults α] (items : List α) : List (Nat × α) :=
  faultyFrom 0 items

/-- The faulty values of a map with their keys. -/
def HasFaults.faultyEntries {α : Type} [HasFaults α] (entries : List (String × α)) :
    List (String × α) :=
  entries.filter fun e => isFaulty e.2

theorem HasFaults.faults_mark {α : Type} [HasFaults α] (fault : Fault) (a : α) :
    faults (mark fault a) = (faults a).inject fault :=
  faults_withFaults _ _

end Flowsheet
