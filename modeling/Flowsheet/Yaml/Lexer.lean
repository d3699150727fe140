import Flowsheet.Yaml.Name
import Flowsheet.Yaml.Scalar.Block
import Flowsheet.Yaml.Scalar.Quoted
import Flowsheet.Yaml.Scalar.Unquoted

/-!
# The tokens of a text

Indentation and keys are what makes a text into tokens hard. A block collection begins at the column
of its first sign or key and ends before content further left. That something was a key shows only
at the colon behind it, so the place where a key may have begun is kept (`Candidate`), and what
turns out to stand before a token is kept with that token (`Entry`).

What belongs to a key's value or to an item stands deeper than the block around it, at least by the
column that `indentMore` adds; brackets inside a block keep that indentation as well. In a block a
key stands with its colon on one line, which is at most `keyLength` characters away.

`Lexer.ofText` gives the tokens of a text up to its end or up to the first problem.
-/

namespace Flowsheet.Yaml

/-- An indentation that content has to keep. -/
structure Margin where
  /-- Its column. -/
  column : Int
  /-- Whether a block collection begins at it. -/
  block : Bool

/-- The column of the innermost indentation. -/
def indentOf : List Margin → Int
  | [] => -1
  | m :: _ => m.column

/-- The indentations that content at a column keeps, and the number of block collections that end
before it. -/
def closeMargins (column : Int) : List Margin → List Margin × Nat
  | [] => ([], 0)
  | m :: rest =>
    if m.column ≤ column then (m :: rest, 0)
    else
      let (kept, ended) := closeMargins column rest
      (kept, if m.block then ended + 1 else ended)

/-- The indentations of block collections only, as far as they are innermost. -/
def blockMargins (ms : List Margin) : List Margin := ms.dropWhile (!·.block)

/-- Indents what follows by one column more than the innermost block collection. -/
def indentByOne (ms : List Margin) : List Margin :=
  match ms with
  | m :: _ => if m.block then ⟨m.column + 1, false⟩ :: ms else ms
  | [] => []

/-- A place where a key may have begun. -/
structure Candidate where
  /-- The number of its first token. -/
  number : Nat
  /-- The number of characters before it. -/
  index : Nat
  /-- Its line. -/
  line : Nat
  /-- Its column. -/
  column : Nat
  /-- Whether only a key may stand there. -/
  required : Bool

/-- A token, with what turned out to stand before it. -/
structure Entry where
  /-- The tokens before. -/
  before : List Token
  /-- The token. -/
  token : Placed

/-- An entry as tokens at one place. -/
def Entry.toList (e : Entry) : List Placed :=
  e.before.map (⟨·, e.token.line, e.token.column⟩) ++ [e.token]

/-- How far a text has been divided into tokens. -/
structure Lexer where
  /-- The place. -/
  cursor : Cursor
  /-- More than the number of characters of the text. -/
  size : Nat
  /-- The tokens so far, the latest first. -/
  entries : List Entry
  /-- Their number. -/
  count : Nat
  /-- The indentations, the innermost first. -/
  margins : List Margin
  /-- Where a key may have begun, for each open bracket and last for the text as a whole. -/
  candidates : List (Option Candidate)
  /-- Whether a key may begin here. -/
  keyAllowed : Bool
  /-- Whether a mapping has been opened that is no pair in a sequence. -/
  braced : Bool
  /-- For each open sequence, the number of brackets at which a pair stands in it, if one does. -/
  pairs : List (Option Nat)
  /-- The number of characters before a place where a colon needs no break behind it. -/
  joined : Option Nat
  /-- The line in which a comment has just ended a plain scalar. -/
  commented : Option Nat

/-- A step of dividing a text into tokens. -/
abbrev Lexing := StateT Lexer (Except SyntaxError)

namespace Lexer

/-- The most characters of a key before its colon. -/
def keyLength : Nat := 1024

/-- The most brackets that may be open. -/
def bracketDepth : Nat := 255

/-- The number of open brackets. -/
def level (s : Lexer) : Nat := s.candidates.length - 1

/-- Whether a bracket is open. -/
def flow (s : Lexer) : Bool := s.level > 0

/-- The innermost place where a key may have begun. -/
def candidate? (s : Lexer) : Option Candidate := s.candidates.head?.join

/-- Replaces the innermost place where a key may have begun. -/
def setCandidate (c : Option Candidate) : Lexing Unit :=
  modify fun s => { s with candidates := c :: s.candidates.tail }

/-- Goes to a place. -/
def goTo (c : Cursor) : Lexing Unit := modify fun s => { s with cursor := c }

/-- Ends with a problem at the place. -/
def fail {α : Type} (problem : Problem) : Lexing α := do
  throw ((← get).cursor.error problem)

/-- Adds a token that begins at a place. -/
def push (token : Token) (c : Cursor) : Lexing Unit :=
  modify fun s =>
    { s with entries := ⟨[], token, c.line, c.column + 1⟩ :: s.entries, count := s.count + 1 }

/-- Puts a token before the one with a number. -/
def insert (number : Nat) (token : Token) : Lexing Unit :=
  modify fun s =>
    let place := s.count - 1 - number
    { s with entries := s.entries.modify place fun e => { e with before := token :: e.before } }

/-- Passes over what may stand behind a token in its line. -/
def passGap (c : Cursor) : Lexing Cursor.Gap := do
  let g ← c.gap
  goTo g.cursor
  return g

/-! ### Indentation -/

/-- Adds the ends of `n` block collections. -/
def pushEnds (c : Cursor) : (n : Nat) → Lexing Unit
  | 0 => return
  | n + 1 => do
    push .blockEnd c
    pushEnds c n

/-- Ends the block collections that content at a column is no part of. -/
def closeBlocks (column : Int) : Lexing Unit := do
  let s ← get
  if !s.flow then
    let (kept, ended) := closeMargins column s.margins
    set { s with margins := kept }
    pushEnds s.cursor ended

/-- Begins a block collection at a column that is deeper than the innermost one: before the token
with a number, or here. -/
def openBlock (column : Nat) (token : Token) (number : Option Nat) : Lexing Unit := do
  let s ← get
  if !s.flow then
    let kept := match s.margins with
      | m :: rest => if m.column ≤ column && !m.block then rest else s.margins
      | [] => []
    if indentOf kept < column then
      set { s with margins := ⟨column, true⟩ :: kept }
      match number with
      | some n => insert n token
      | none => push token s.cursor
    else set { s with margins := kept }

/-- Indents what follows by one column more than the block. -/
def indentMore : Lexing Unit :=
  modify fun s => if s.flow then s else { s with margins := indentByOne s.margins }

/-- Takes back indentations that no block collection has. -/
def indentLess : Lexing Unit := modify fun s => { s with margins := blockMargins s.margins }

/-! ### Keys -/

/-- Notes that a key may begin here, if one may. It has to be one at the column of a block. -/
def markKey : Lexing Unit := do
  let s ← get
  if s.keyAllowed then
    let c := s.cursor
    let required := !s.flow && s.margins.head?.any fun m => m.block && m.column == (c.column : Int)
    setCandidate (some ⟨s.count, c.index, c.line, c.column, required⟩)

/-- Gives up the innermost key that may have begun. -/
def dropKey : Lexing Unit := do
  if (← get).candidate?.any (·.required) then fail .missingColon
  setCandidate none

/-- In a block, gives up a key whose colon would not be in its line or too far away. -/
def checkKey : Lexing Unit := do
  let s ← get
  if let some k := s.candidate? then
    if !s.flow && (k.line < s.cursor.line || k.index + keyLength < s.cursor.index) then dropKey

/-- Allows or forbids that a key begins here. -/
def allowKey (allowed : Bool) : Lexing Unit := modify fun s => { s with keyAllowed := allowed }

/-- Passes to the next content. In a block a key may begin in a new line. -/
def advance : Lexing Unit := do
  let s ← get
  let margin := if s.margins.isEmpty then none else some (indentOf s.margins)
  let (c, ended) ← s.cursor.advance margin s.size false
  goTo c
  if ended && !s.flow then allowKey true

/-! ### Brackets -/

/-- Ends the pair that stands in the innermost sequence, if its bracket is the innermost. -/
def closePair (c : Cursor) : Lexing Unit := do
  let s ← get
  if s.pairs.head? == some (some s.level) then
    set { s with braced := false, pairs := none :: s.pairs.tail }
    push .closeMapping c

/-- An opening bracket or brace. -/
def openBracket (token : Token) : Lexing Unit := do
  markKey
  let c := (← get).cursor
  indentMore
  if (← get).level ≥ bracketDepth then fail .deepBrackets
  modify fun s => { s with candidates := none :: s.candidates, keyAllowed := true }
  if token == .openMapping then modify fun s => { s with braced := true }
  else modify fun s => { s with pairs := none :: s.pairs }
  let _ ← passGap c.next
  push token c

/-- A closing bracket or brace. -/
def closeBracket (token : Token) : Lexing Unit := do
  if !(← get).flow then fail .unopenedBracket
  let c := (← get).cursor
  dropKey
  if token == .closeSequence then
    closePair c
    modify fun s => { s with pairs := s.pairs.tail }
  modify fun s => { s with candidates := s.candidates.tail, keyAllowed := false }
  let g ← passGap c.next
  modify fun s => if s.flow then { s with joined := some g.cursor.index } else s
  push token c

/-- A comma. -/
def comma : Lexing Unit := do
  let c := (← get).cursor
  dropKey
  allowKey true
  closePair c
  let _ ← passGap c.next
  push .comma c

/-! ### Signs -/

/-- The hyphen before an item. Behind a tab no further hyphen may follow. -/
def item : Lexing Unit := do
  let s ← get
  let c := s.cursor
  if s.flow || !s.keyAllowed then fail (.misplaced '-')
  openBlock c.column .blockSequence none
  let g ← passGap c.next
  if g.tab && g.cursor.atSign '-' then fail .tabSeparation
  if g.cursor.sees '\n' || g.cursor.head?.any isFlowIndicator then indentMore
  dropKey
  allowKey true
  push .item c

/-- The question mark before a key. Behind it stand spaces and line ends, but no tab. -/
def explicitKey : Lexing Unit := do
  let s ← get
  let c := s.cursor
  if s.flow then modify fun s => { s with braced := true }
  else
    if !s.keyAllowed then fail (.misplaced '?')
    openBlock c.column .blockMapping none
  dropKey
  allowKey !s.flow
  goTo c.next
  if c.next.sees '\t' || c.next.atEnd then fail .tabSeparation
  let (d, ended) := c.next.skipSpaces s.size false
  goTo d
  if ended && !s.flow then allowKey true
  if d.sees '\t' then fail .tabSeparation
  push .key c

/-- The colon before a value. A tab alone does not separate it from a word. -/
def value : Lexing Unit := do
  let s ← get
  let c := s.cursor
  let pair := !s.pairs.isEmpty && !s.braced
  if pair then modify fun s => { s with pairs := some s.level :: s.pairs.tail }
  goTo c.next
  if c.next.sees '\t' then
    let g ← passGap c.next
    if !g.space && g.cursor.head?.any isWordChar then fail .tabSeparation
  match s.candidate? with
  | some k =>
    insert k.number .key
    if pair then
      if k.line < c.line then throw (c.error .splitKey)
      insert k.number .openMapping
    openBlock k.column .blockMapping (some k.number)
    indentMore
    setCandidate none
    allowKey false
  | none =>
    if pair then push .openMapping c
    if !s.flow then
      if !s.keyAllowed then throw (c.error (.misplaced ':'))
      openBlock c.column .blockMapping none
    indentMore
    allowKey !s.flow
  push .value c

/-! ### Nodes -/

/-- A token that may begin a key, but behind which none begins. -/
def mayBeKey (read : Cursor → Except SyntaxError (Token × Cursor)) : Lexing Unit := do
  markKey
  allowKey false
  let c := (← get).cursor
  let (token, d) ← read c
  goTo d
  push token c

/-- An anchor. -/
def anchor (c : Cursor) : Except SyntaxError (Token × Cursor) :=
  (anchorName c).map fun (name, d) => (.anchor name, d)

/-- An alias. -/
def reference (c : Cursor) : Except SyntaxError (Token × Cursor) :=
  (anchorName c).map fun (name, d) => (.reference name, d)

/-- A block scalar. -/
def block : Lexing Unit := do
  markKey
  allowKey true
  indentLess
  let s ← get
  let (text, d) ← blockScalar (indentOf s.margins) s.size s.cursor
  goTo d
  push (.scalar text false) s.cursor

/-- A quoted scalar. A colon behind it needs no break. -/
def quotation (quote : Char) : Lexing Unit := do
  markKey
  allowKey false
  let s ← get
  let (text, d) ← quoted ⟨quote, s.flow, indentOf s.margins⟩ s.size s.cursor
  goTo d
  advance
  modify fun t => { t with joined := some t.cursor.index }
  push (.scalar text false) s.cursor

/-- A plain scalar. A key may begin behind it in a new line. -/
def word : Lexing Unit := do
  markKey
  allowKey false
  indentLess
  let s ← get
  let (text, d) ← plain s.flow (indentOf s.margins + 1) s.size s.cursor
  goTo d
  if d.fresh then allowKey true
  else if d.sees '#' && !s.flow then modify fun t => { t with commented := some d.line }
  push (.scalar text true) s.cursor

/-- Refuses to go on with a plain scalar in the line after a comment that has ended it. -/
def checkComment : Lexing Unit := do
  let s ← get
  let c := s.cursor
  set { s with commented := none }
  if s.commented.any (· + 1 == c.line) && indentOf s.margins < (c.column : Int)
      && !c.atEnd && !c.atMarker && !c.atSign ':' then
    fail .brokenScalar

/-! ### Lines of their own -/

/-- Ends everything before a document marker or directive. -/
def closeAll : Lexing Unit := do
  closeBlocks (-1)
  dropKey
  allowKey false

/-- A directive. -/
def directiveLine : Lexing Unit := do
  closeAll
  let c := (← get).cursor
  let (token, d) ← directive c
  goTo d
  push token c

/-- A document marker. Nothing but a comment follows the one after a document in its line. -/
def marker (token : Token) : Lexing Unit := do
  closeAll
  let c := (← get).cursor
  goTo (c.forward 3)
  if token == .documentEnd then
    let g ← passGap (c.forward 3)
    if !g.cursor.atLineEnd then fail .trailing
  push token c

/-! ### The text -/

/-- Whether a character closes an entry between brackets. -/
def closesEntry (x : Char) : Bool := x == ',' || x == ']' || x == '\x7d'

/-- Reads the tokens that begin with the character at the place. -/
def readToken (x : Char) : Lexing Unit := do
  let s ← get
  let c := s.cursor
  let joined := s.joined == some c.index
  let follower := (c.rest.drop 1).head?
  if x == '[' then openBracket .openSequence
  else if x == '\x7b' then openBracket .openMapping
  else if x == ']' then closeBracket .closeSequence
  else if x == '\x7d' then closeBracket .closeMapping
  else if x == ',' then comma
  else if c.atSign '-' then item
  else if c.atSign '?' then explicitKey
  else if c.atSign ':' then value
  else if x == ':' && s.flow && (joined || follower.any isFlowIndicator) then
    if !joined && (follower == some '[' || follower == some '\x7b') then fail (.misplaced ':')
    value
  else if x == '*' then mayBeKey reference
  else if x == '&' then mayBeKey anchor
  else if x == '!' then mayBeKey (tag s.flow)
  else if (x == '|' || x == '>') && !s.flow then block
  else if x == '"' || x == '\'' then quotation x
  else if x == '%' || x == '@' || x == '\x60' then fail (.unexpected x)
  else word

/-- Reads the next tokens, and tells whether the text goes on. -/
def step : Lexing Bool := do
  advance
  checkComment
  checkKey
  closeBlocks (← get).cursor.column
  let s ← get
  let c := s.cursor
  match c.head? with
  | none =>
    dropKey
    closeBlocks (-1)
    return false
  | some x =>
    if c.column == 0 && x == '%' then directiveLine
    else if c.atMarker then marker (if x == '-' then .documentStart else .documentEnd)
    else
      if (c.column : Int) < indentOf s.margins && !(s.flow && closesEntry x) then
        fail .wrongIndentation
      readToken x
    return true

/-- The tokens of a text. -/
structure Outcome where
  /-- The tokens. -/
  tokens : List Placed
  /-- What is found behind them: a problem, or the end of the text. -/
  stop : SyntaxError
  /-- Whether they are all. -/
  complete : Bool

/-- The tokens of a text that has been read up to its end. -/
def finished (s : Lexer) : Outcome :=
  ⟨s.entries.reverse.flatMap Entry.toList, s.cursor.error .unfinished, true⟩

/-- Whether a place where a key may have begun can still turn out to be one. -/
def isOpen (s : Lexer) (k : Candidate) : Bool :=
  s.flow || (k.line == s.cursor.line && s.cursor.index ≤ k.index + keyLength)

/-- The tokens before a problem. Those from a place on where a key may have begun are not among
them, since what stands before them is not known. -/
def stopped (s : Lexer) (e : SyntaxError) : Outcome :=
  let unsettled := (s.candidates.filterMap id).filter s.isOpen
  let known := unsettled.foldl (fun n k => min n k.number) s.count
  ⟨(s.entries.drop (s.count - known)).reverse.flatMap Entry.toList, e, false⟩

/-- Reads all tokens in at most `n` steps. -/
def run : (n : Nat) → Lexer → Outcome
  | 0, s => s.stopped (s.cursor.error .unfinished)
  | n + 1, s =>
    match step.run s with
    | .error e => s.stopped e
    | .ok (true, t) => run n t
    | .ok (false, t) => t.finished

/-- The tokens of a text. -/
def ofText (text : String) : Outcome :=
  let cs := normalize text
  let size := cs.length + 1
  run (size + 1)
    ⟨Cursor.start cs, size, [], 0, [], [none], true, false, [], none, none⟩

end Lexer

end Flowsheet.Yaml
