/-!
# Where a fault sits

A `FaultKey` names one child of a fault tree, a `FaultPath` leads from the root to one fault.
`FaultPath.text` writes a path the way diagnostics show it: `nodes['n'].in_ports[0].index`.
-/

namespace Flowsheet

/-- One step down a fault tree. -/
inductive FaultKey where
  /-- A named field of an entity. -/
  | field (name : String)
  /-- A position in a list field. -/
  | index (position : Nat)
  /-- A caller's key in a map field. -/
  | key (text : String)
  /-- The fault that a tree had of its own before it received another one. -/
  | prior
  deriving DecidableEq, Repr, Inhabited

namespace FaultKey

/-- The written form of one key. -/
def text : FaultKey → String
  | field name => name
  | index position => "[" ++ toString position ++ "]"
  | key text => "['" ++ text ++ "']"
  | prior => "(prior)"

/-- Fields and the earlier fault are set off by a dot, positions and keys bring their brackets. -/
def isDotted : FaultKey → Bool
  | field _ | prior => true
  | index _ | key _ => false

end FaultKey

/-- The keys from the root of a tree to one fault; the root's own path is empty. -/
abbrev FaultPath := List FaultKey

namespace FaultPath

/-- The path of the root. -/
def root : FaultPath := []

/-- One step further. -/
def join (path : FaultPath) (key : FaultKey) : FaultPath := path ++ [key]

/-- The written form of the keys that follow another key. -/
def continued : List FaultKey → String
  | [] => ""
  | key :: rest => (if key.isDotted then "." else "") ++ key.text ++ continued rest

/-- The written form of a path; the first key has no dot before it. -/
def text : FaultPath → String
  | [] => "<root>"
  | key :: rest => key.text ++ continued rest

end FaultPath

end Flowsheet
