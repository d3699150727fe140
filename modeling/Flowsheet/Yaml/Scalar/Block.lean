import Flowsheet.Yaml.Cursor

/-!
# Block scalars

A block scalar is introduced by a sign and reaches as far as its lines are indented. A literal one
keeps its line ends; a folded one joins lines that begin without a blank. The head says what happens
to line ends after the last line with content, and may give the indentation; otherwise the first
line with content gives it, and no empty line before that may be indented deeper.
-/

namespace Flowsheet.Yaml

/-- What happens to the line ends at the end of a block scalar. -/
inductive Chomping where
  /-- One stays. -/
  | clip
  /-- None stays. -/
  | strip
  /-- All stay. -/
  | keep
  deriving DecidableEq, Repr

/-- The head of a block scalar. -/
structure BlockHead where
  /-- Whether lines are folded. -/
  fold : Bool
  /-- What happens to line ends at the end. -/
  chomping : Chomping
  /-- The indentation relative to the enclosing block, if it is given. -/
  digit : Option Nat

/-- What a mark at the end of the sign says about line ends. -/
def chomping? : Char → Option Chomping
  | '+' => some .keep
  | '-' => some .strip
  | _ => none

/-- What a digit says about the indentation. -/
def indentDigit? (c : Char) : Option Nat :=
  if '1' ≤ c ∧ c ≤ '9' then some (c.toNat - '0'.toNat) else none

/-- The marks after the sign, in any order and each at most once, and the place behind them. -/
def blockHead (c : Cursor) : BlockHead × Cursor :=
  let fold := c.sees '>'
  let d := c.next
  match d.head?.bind chomping?, d.head?.bind indentDigit? with
  | some m, _ =>
    match d.next.head?.bind indentDigit? with
    | some k => (⟨fold, m, some k⟩, d.next.next)
    | none => (⟨fold, m, none⟩, d.next)
  | none, some k =>
    match d.next.head?.bind chomping? with
    | some m => (⟨fold, m, some k⟩, d.next.next)
    | none => (⟨fold, .clip, some k⟩, d.next)
  | none, none => (⟨fold, .clip, none⟩, d)

/-- Passes over empty lines and over the spaces before content up to the column `indent`, in at most
`n` steps: the number of line ends, and the place. -/
def skipMargin (indent : Nat) : (n : Nat) → Cursor → (breaks : Nat) → Nat × Cursor
  | 0, c, breaks => (breaks, c)
  | n + 1, c, breaks =>
    if c.sees '\n' then skipMargin indent n c.next (breaks + 1)
    else if c.sees ' ' && c.column < indent then skipMargin indent n c.next breaks
    else (breaks, c)

/-- Passes over empty lines and over all spaces before content, in at most `n` steps: the number of
line ends, the deepest column, and the place. -/
def findMargin : (n : Nat) → Cursor → (breaks deepest : Nat) → Nat × Nat × Cursor
  | 0, c, breaks, deepest => (breaks, deepest, c)
  | n + 1, c, breaks, deepest =>
    if c.sees ' ' then findMargin n c.next breaks deepest
    else if c.sees '\n' then findMargin n c.next (breaks + 1) (max deepest c.column)
    else (breaks, max deepest c.column, c)

/-- The lines of a block scalar that have been read, with line ends that are still to be placed. -/
structure BlockText where
  /-- What has been read, in reversed order. -/
  acc : List Char
  /-- Whether the last line has ended. -/
  ended : Bool
  /-- The number of empty lines after it. -/
  empty : Nat
  /-- Whether it begins with a blank. -/
  spaced : Bool
  /-- The place behind. -/
  cursor : Cursor

/-- What stands between the lines read so far and a further line, in reversed order. A folded line
end is a blank, or nothing before empty lines; it stays beside a line that begins with a blank. -/
def BlockText.join (t : BlockText) (fold spaced : Bool) : List Char :=
  let empty := List.replicate t.empty '\n'
  if fold && t.ended && !t.spaced && !spaced then (if t.empty = 0 then [' '] else empty)
  else if t.ended then '\n' :: empty
  else empty

/-- Reads lines that are indented to the column `indent`, in at most `n` steps. -/
def BlockText.lines (fold : Bool) (indent : Nat) : (n : Nat) → BlockText → BlockText
  | 0, t => t
  | n + 1, t =>
    let c := t.cursor
    if c.column != indent || c.atEnd || (indent == 0 && c.marks '.') then t
    else
      let spaced := c.head?.any isBlank
      let (line, d) := c.span (· != '\n')
      let acc := line.reverse ++ (t.join fold spaced ++ t.acc)
      if d.atEnd then ⟨acc, false, 0, spaced, d⟩
      else
        let (empty, e) := skipMargin indent n d.next 0
        lines fold indent n ⟨acc, true, empty, spaced, e⟩

/-- The text of a block scalar whose lines have been read. The end of the text ends an indented
line as well. -/
def BlockText.close (t : BlockText) (chomping : Chomping) (indent : Nat) : List Char :=
  let ended := if t.ended then ['\n'] else []
  let last := if t.cursor.atEnd && max indent 1 ≤ t.cursor.column then ['\n'] else []
  let text := match chomping with
    | .strip => t.acc
    | .clip => last ++ (ended ++ t.acc)
    | .keep => List.replicate t.empty '\n' ++ (last ++ (ended ++ t.acc))
  text.reverse

/-- The text of a block scalar that the text ends in before any content. -/
def emptyBlock (chomping : Chomping) (breaks : Nat) : List Char :=
  match chomping with
  | .strip => []
  | .clip => ['\n']
  | .keep => List.replicate (max breaks 1) '\n'

/-- A block scalar, from its sign on, in a block at column `parent`. -/
def blockScalar (parent : Int) (n : Nat) (c : Cursor) : Except SyntaxError (String × Cursor) := do
  let (head, d) := blockHead c
  let ended := (← d.gap).cursor
  if !ended.atLineEnd then throw (ended.error .blockScalarHead)
  if ended.atEnd then return ("", ended)
  let first := ended.next
  if first.sees '\t' then throw (first.error .tabIndentation)
  let (breaks, indent, content) := match head.digit with
    | some k =>
      let indent := (max parent 0).toNat + k
      let (breaks, content) := skipMargin indent n first 0
      (breaks, indent, content)
    | none =>
      let (breaks, deepest, content) := findMargin n first 0 0
      (breaks, max deepest (parent + 1).toNat, content)
  if content.atEnd then return (textOf (emptyBlock head.chomping breaks), content)
  if content.column < indent && parent < (content.column : Int) then
    throw (content.error .wrongIndentation)
  let t := BlockText.lines head.fold indent n ⟨[], false, breaks, false, content⟩
  let text := t.close head.chomping indent
  if head.fold && content.column == 0 && !text.all Char.isWhitespace then
    throw (content.error .flushFolding)
  return (textOf text, t.cursor)

end Flowsheet.Yaml
