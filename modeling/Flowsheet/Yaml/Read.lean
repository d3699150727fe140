import Flowsheet.Yaml.Lexer
import Flowsheet.Yaml.Node

/-!
# Reading a text

The nodes of a text, from its tokens. An empty place is a node where an entry, a key or a value may
stand; elsewhere only properties make it one.

The reader's state is the tokens still to be read and the nodes that carry an anchor so far. Every
function has a bound on its steps, which `Node.ofText` takes from the number of tokens. Independent
of it, `Reader.nesting` bounds the nesting of a document and `Reader.replays` what its aliases may
stand for, and aliases may not outnumber anchors by far.

A text has one document, and what stands behind its root without a document of its own is not read:
`finishDocument` asks only that a token follows, if anything does.
-/

namespace Flowsheet

namespace Yaml

/-- How far a text has been read. -/
structure State where
  /-- The tokens still to be read. -/
  tokens : List Placed
  /-- What is found behind them. -/
  stop : SyntaxError
  /-- Whether that is the end of the text. -/
  complete : Bool
  /-- What the handles of tags stand for, by the directives of the document. -/
  handles : List (String × String)
  /-- The anchors by name, the latest first, numbered from one. -/
  anchors : List (String × Nat)
  /-- The nodes of the anchors that are complete, with their extents. -/
  nodes : List (Nat × Node × Nat)
  /-- The number of aliases. -/
  aliases : Nat
  /-- The extent of what the aliases stand for. -/
  replayed : Nat

/-- A step of reading. -/
abbrev Reader := StateT State (Except SyntaxError)

namespace Reader

/-- The most collections that may stand inside each other. -/
def nesting : Nat := 2000

/-- The most that aliases may stand for. -/
def replays : Nat := 1000000

/-- The number of aliases from which they are compared with the anchors. -/
def aliasesAllowed : Nat := 100

/-- The most aliases for each anchor. -/
def aliasesPerAnchor : Nat := 10

/-- The next token, or nothing at the end of the text. -/
def peek : Reader (Option Token) := do
  let s ← get
  match s.tokens with
  | t :: _ => return some t.token
  | [] => if s.complete then return none else throw s.stop

/-- Passes over a token. -/
def pass : Reader Unit := modify fun s => { s with tokens := s.tokens.tail }

/-- Ends with a problem at the next token. -/
def fail {α : Type} (problem : Problem) : Reader α := do
  let s ← get
  match s.tokens with
  | t :: _ => throw ⟨problem, t.line, t.column⟩
  | [] => throw { s.stop with problem := problem }

/-- Ends because a token, or the end of the text, has no place here. -/
def unexpected {α : Type} : Reader α := do
  match ← peek with
  | some _ => fail .trailing
  | none => fail .unfinished

/-- Whether one of some tokens is next. -/
def sees (tokens : List Token) : Reader Bool := return (← peek).any tokens.contains

/-! ### Properties -/

/-- The properties that may stand before a node. -/
structure Properties where
  /-- The number of its anchor. -/
  anchor : Option Nat
  /-- Its tag: whether it marks a text. -/
  tag : Option Bool

/-- Whether there are any properties. -/
def Properties.any (p : Properties) : Bool := p.anchor.isSome || p.tag.isSome

/-- An anchor, if one is next. -/
def anchor? : Reader (Option Nat) := do
  match ← peek with
  | some (.anchor name) =>
    pass
    let number := (← get).anchors.length + 1
    modify fun s => { s with anchors := (name, number) :: s.anchors }
    return some number
  | _ => return none

/-- What a handle of a tag stands for. -/
def handleMeaning (handle : String) : Reader String := do
  match Assoc.get? handle (← get).handles with
  | some meaning => return meaning
  | none =>
    if handle == "!!" then return "tag:yaml.org,2002:"
    else if handle == "!" || handle.isEmpty then return handle
    else fail (.undeclaredHandle handle)

/-- A tag, if one is next: whether it marks a text. A lone exclamation mark does. -/
def tag? : Reader (Option Bool) := do
  match ← peek with
  | some (.tag handle suffix) =>
    let meaning := (← handleMeaning handle) ++ suffix
    pass
    return some (meaning == "!" || meaning == "tag:yaml.org,2002:str")
  | _ => return none

/-- The properties before a node: at most one of each kind, in any order. -/
def properties : Reader Properties := do
  match ← anchor? with
  | some n => return ⟨some n, ← tag?⟩
  | none =>
    match ← tag? with
    | some t => return ⟨← anchor?, some t⟩
    | none => return ⟨none, none⟩

/-- A node with its properties; one with an anchor can be referred to from here on. -/
def finish (p : Properties) (node : Node) : Reader Node := do
  let node := if p.tag.getD false then node.asText else node
  if let some n := p.anchor then
    modify fun s => { s with nodes := (n, node, node.extent) :: s.nodes }
  return node

/-- The node of the latest anchor with a name, which has to be complete. -/
def resolve (name : String) : Reader Node := do
  let s ← get
  match (Assoc.get? name s.anchors).bind fun n => Assoc.get? n s.nodes with
  | some (node, extent) =>
    if s.replayed + extent > replays then fail .tooManyAliases
    set { s with aliases := s.aliases + 1, replayed := s.replayed + extent }
    return node
  | none => fail (.undefinedAlias name)

/-! ### Nodes -/

/-- What may follow an empty item or value between brackets. -/
def flowFollowers : List Token := [.comma, .closeSequence, .closeMapping]

/-- What may follow an empty key or value of a block mapping. -/
def blockFollowers : List Token := [.key, .value, .blockEnd]

mutual

/-- A node inside `depth` collections. Block collections may begin here where `block` is set, and
with `flat` a block sequence without a beginning of its own. -/
def node : Nat → (depth : Nat) → (block flat : Bool) → Reader Node
  | 0, _, _, _ => fail .tooDeep
  | n + 1, depth, block, flat => do
    if let some (.reference name) := ← peek then
      let node ← resolve name
      pass
      return node
    let p ← properties
    match ← peek with
    | some (.scalar text plain) =>
      pass
      finish p (.scalar text plain)
    | some .openSequence =>
      pass
      finish p (.sequence (← flowItems n (depth + 1) true))
    | some .openMapping =>
      pass
      finish p (.mapping (← flowEntries n (depth + 1) true))
    | some token =>
      if block && token == .blockSequence then
        pass
        finish p (.sequence (← blockItems n (depth + 1)))
      else if block && token == .blockMapping then
        pass
        finish p (.mapping (← blockEntries n (depth + 1)))
      else if flat && token == .item then finish p (.sequence (← flatItems n (depth + 1)))
      else if p.any then finish p .nothing
      else unexpected
    | none => if p.any then finish p .nothing else unexpected

/-- The items of a block sequence up to its end. -/
def blockItems : Nat → (depth : Nat) → Reader (List Node)
  | 0, _ => fail .tooDeep
  | n + 1, depth => do
    if depth > nesting then fail .tooDeep
    match ← peek with
    | some .blockEnd =>
      pass
      return []
    | some .item =>
      pass
      let item ←
        if ← sees [.item, .blockEnd] then pure .nothing else node n depth true false
      return item :: (← blockItems n depth)
    | _ => unexpected

/-- The items of a block sequence that stands at the column of the mapping around it. -/
def flatItems : Nat → (depth : Nat) → Reader (List Node)
  | 0, _ => fail .tooDeep
  | n + 1, depth => do
    if depth > nesting then fail .tooDeep
    if ← sees [.item] then
      pass
      let item ←
        if ← sees (.item :: blockFollowers) then pure .nothing else node n depth true false
      return item :: (← flatItems n depth)
    return []

/-- The entries of a block mapping up to its end. -/
def blockEntries : Nat → (depth : Nat) → Reader (List (Node × Node))
  | 0, _ => fail .tooDeep
  | n + 1, depth => do
    if depth > nesting then fail .tooDeep
    match ← peek with
    | some .blockEnd =>
      pass
      return []
    | some .key =>
      pass
      let key ← blockPart n depth
      let value ← blockValue n depth
      return (key, value) :: (← blockEntries n depth)
    | some .value =>
      let value ← blockValue n depth
      return (.nothing, value) :: (← blockEntries n depth)
    | _ => unexpected

/-- A key or value of a block mapping, which may be empty. -/
def blockPart : Nat → (depth : Nat) → Reader Node
  | 0, _ => fail .tooDeep
  | n + 1, depth => do
    if ← sees blockFollowers then return .nothing
    node n depth true true

/-- The value of an entry of a block mapping, which is empty where no colon is next. -/
def blockValue : Nat → (depth : Nat) → Reader Node
  | 0, _ => fail .tooDeep
  | n + 1, depth => do
    if ← sees [.value] then
      pass
      return ← blockPart n depth
    return .nothing

/-- The items of a sequence up to its closing bracket. -/
def flowItems : Nat → (depth : Nat) → (first : Bool) → Reader (List Node)
  | 0, _, _ => fail .tooDeep
  | n + 1, depth, first => do
    if depth > nesting then fail .tooDeep
    if !first && !(← sees [.closeSequence]) then
      if ← sees [.comma] then pass else unexpected
    match ← peek with
    | some .closeSequence =>
      pass
      return []
    | some .key =>
      if depth ≥ nesting then fail .tooDeep
      pass
      let key ← flowPart n depth
      let value ← flowValue n depth
      return .mapping [(key, value)] :: (← flowItems n depth false)
    | _ =>
      let item ← node n depth false false
      return item :: (← flowItems n depth false)

/-- The entries of a mapping up to its closing brace. A key without a mark has no value. -/
def flowEntries : Nat → (depth : Nat) → (first : Bool) → Reader (List (Node × Node))
  | 0, _, _ => fail .tooDeep
  | n + 1, depth, first => do
    if depth > nesting then fail .tooDeep
    if !first && !(← sees [.closeMapping]) then
      if ← sees [.comma] then pass else unexpected
    match ← peek with
    | some .closeMapping =>
      pass
      return []
    | some .key =>
      pass
      let key ← flowPart n depth
      let value ← flowValue n depth
      return (key, value) :: (← flowEntries n depth false)
    | some .value =>
      let value ← flowValue n depth
      return (.nothing, value) :: (← flowEntries n depth false)
    | _ =>
      let key ← node n depth false false
      return (key, .nothing) :: (← flowEntries n depth false)

/-- A key or value between brackets, which may be empty. -/
def flowPart : Nat → (depth : Nat) → Reader Node
  | 0, _ => fail .tooDeep
  | n + 1, depth => do
    if ← sees (.value :: flowFollowers) then return .nothing
    node n depth false false

/-- The value of an entry between brackets, which is empty where no colon is next. -/
def flowValue : Nat → (depth : Nat) → Reader Node
  | 0, _ => fail .tooDeep
  | n + 1, depth => do
    if ← sees [.value] then
      pass
      return ← flowPart n depth
    return .nothing

end

/-! ### The document -/

/-- Passes over markers after a document. -/
def passEnds : Reader Unit :=
  modify fun s => { s with tokens := s.tokens.dropWhile (·.token == .documentEnd) }

/-- Passes over the directives before a document, in at most `n` steps. A version is given at most
once. -/
def directives : Nat → (versioned : Bool) → Reader Unit
  | 0, _ => return
  | n + 1, versioned => do
    match ← peek with
    | some .version =>
      if versioned then fail .directive
      pass
      directives n true
    | some (.handle name meaning) =>
      modify fun s => { s with handles := (name, meaning) :: s.handles }
      pass
      directives n versioned
    | some .reserved =>
      pass
      directives n versioned
    | _ => return

/-- Whether a token is a directive. -/
def isDirective : Token → Bool
  | .version | .handle _ _ | .reserved => true
  | _ => false

/-- Whether a token ends a document without content. -/
def isBoundary (token : Token) : Bool :=
  isDirective token || token == .documentStart || token == .documentEnd

/-- The root, after the directives and the marker before the document. -/
def root (n : Nat) : Reader Node := do
  match ← peek with
  | none => return .nothing
  | some token =>
    if isBoundary token then
      directives n false
      if !(← sees [.documentStart]) then fail .directive
      pass
      if (← peek).all isBoundary then return .nothing
    node n 0 true false

/-- Whether a second document begins behind the markers after the first. Directives begin one only
with the marker before a document. -/
def startsDocument (tokens : List Placed) : Bool :=
  match tokens, tokens.dropWhile (isDirective ·.token) with
  | _, [] => false
  | first :: _, next :: _ => !isDirective first.token || next.token == .documentStart
  | [], _ => false

/-- Ends the document. No directive may follow it without a marker after it, and no second document.
What follows in no document of its own is not read, but it has to begin with a token. -/
def finishDocument : Reader Unit := do
  match ← peek with
  | some .documentEnd =>
    passEnds
    if startsDocument (← get).tokens then fail .secondDocument
  | some .documentStart => fail .secondDocument
  | some token => if isDirective token then fail .directive
  | none => return

/-- The one document of a text, in at most `n` steps. -/
def document (n : Nat) : Reader Node := do
  passEnds
  let node ← root n
  finishDocument
  let s ← get
  if s.aliases ≥ aliasesAllowed && s.aliases > aliasesPerAnchor * s.anchors.length then
    fail .tooManyAliases
  return node

end Reader

/-- The root node of a text. -/
def Node.ofText (text : String) : Except SyntaxError Node :=
  let found := Lexer.ofText text
  let steps := 4 * found.tokens.length + 8
  let start : State := ⟨found.tokens, found.stop, found.complete, [], [], [], 0, 0⟩
  ((Reader.document steps).run start).map (·.1)

end Yaml

/-- The document that a text stands for. -/
def Document.ofYaml (text : String) : Except Yaml.SyntaxError Document := do
  let node ← Yaml.Node.ofText text
  let event ← node.toEvent.mapError fun problem => ⟨problem, 1, 1⟩
  (Document.ofEvent event).mapError fun _ => ⟨.trailing, 1, 1⟩

end Flowsheet
