import Flowsheet.Yaml.Plain
import Flowsheet.Yaml.Problem

/-!
# The nodes of a text

What a text consists of before its plain scalars are given a meaning. `Node.toEvent` gives them
one: keys are the texts of scalars, whatever they would mean as values, except that a key must not
mean null, and no key may occur twice in one mapping. The plain key `<<` merges another mapping into
its own, whose entries come first and are not replaced.
-/

namespace Flowsheet.Yaml

/-- A node of a text. -/
inductive Node where
  /-- A scalar; a plain one takes its meaning from its text, another one is a text. -/
  | scalar (text : String) (plain : Bool)
  /-- Nodes in order. -/
  | sequence (items : List Node)
  /-- Pairs of key and value in order. -/
  | mapping (entries : List (Node × Node))

namespace Node

/-- The node of nothing at all. -/
def nothing : Node := scalar "" true

instance : Inhabited Node := ⟨nothing⟩

/-- A scalar that is a text whatever it looks like; other nodes as they are. -/
def asText : Node → Node
  | scalar text _ => scalar text false
  | node => node

/-- The key that a node is. -/
def key : Node → Except Problem String
  | scalar text plain => if plain && Plain.isNull text.toList then .error .nullKey else .ok text
  | sequence _ | mapping _ => .error .keyNotScalar

/-- Whether a key asks for the entries of its value instead of being one. -/
def isMerge : Node → Bool
  | scalar text plain => plain && text == "<<"
  | _ => false

/-- The first key that comes up twice. -/
def repeated? : List String → Option String
  | [] => none
  | k :: rest => if rest.contains k then some k else repeated? rest

/-- The entries of one merged mapping, or of none. -/
def mergedMapping : Event → Except Problem (List (String × Event))
  | .unit => .ok []
  | .mapping entries => .ok entries
  | _ => .error .mergedValue

/-- The entries that a merged value brings. -/
def mergedEntries : Event → Except Problem (List (String × Event))
  | .sequence items => (items.mapM mergedMapping).map List.flatten
  | event => mergedMapping event

/-- Adds an entry whose key is new. -/
def addEntry (entries : List (String × Event)) (entry : String × Event) : List (String × Event) :=
  if entries.any (·.1 == entry.1) then entries else entries ++ [entry]

/-- The entries of a mapping. Those without a key are merged behind the others, the last of them
first. -/
def assemble (entries : List (Option String × Event)) : Except Problem (List (String × Event)) := do
  let own := entries.filterMap fun (k, event) => k.map (·, event)
  if let some k := repeated? (own.map (·.1)) then throw (.duplicateKey k)
  let merged ← (entries.reverse.filter (·.1.isNone)).mapM fun (_, event) => mergedEntries event
  return merged.flatten.foldl addEntry own

mutual

/-- What a node means. -/
def toEvent : Node → Except Problem Event
  | scalar text plain => .ok (if plain then Plain.meaning text else .text text)
  | sequence items => (toItems items).map .sequence
  | mapping entries => do return .mapping (← assemble (← toEntries entries))

/-- What some nodes mean. -/
def toItems : List Node → Except Problem (List Event)
  | [] => .ok []
  | node :: rest => do
    let event ← toEvent node
    return event :: (← toItems rest)

/-- What some pairs of nodes mean. What is merged has no key. -/
def toEntries : List (Node × Node) → Except Problem (List (Option String × Event))
  | [] => .ok []
  | (k, v) :: rest => do
    let text ← if isMerge k then pure none else (key k).map some
    let event ← toEvent v
    return (text, event) :: (← toEntries rest)

end

mutual

/-- The extent of a node: one for a scalar, and two for a collection besides what it consists of. -/
def extent : Node → Nat
  | scalar _ _ => 1
  | sequence items => 2 + itemsExtent items
  | mapping entries => 2 + entriesExtent entries

/-- The extent of some nodes. -/
def itemsExtent : List Node → Nat
  | [] => 0
  | node :: rest => extent node + itemsExtent rest

/-- The extent of some pairs of nodes. -/
def entriesExtent : List (Node × Node) → Nat
  | [] => 0
  | (k, v) :: rest => extent k + extent v + entriesExtent rest

end

end Node

end Flowsheet.Yaml
