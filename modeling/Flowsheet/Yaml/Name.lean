import Flowsheet.Yaml.Cursor
import Flowsheet.Yaml.Token

/-!
# Names, tags and directives

An anchor or alias has a name that reaches to a blank or a flow indicator. A tag is written in full
between angle brackets, or as a handle and a suffix. A directive fills its line.
-/

namespace Flowsheet.Yaml

/-- The name behind the sign of an anchor or alias. -/
def anchorName (c : Cursor) : Except SyntaxError (String × Cursor) :=
  let (name, d) := c.next.span fun x => !(isBlank x || x == '\n' || isFlowIndicator x)
  if name.isEmpty then .error (c.error .emptyName) else .ok (textOf name, d)

/-! ### Tags -/

/-- A character of a tag that is written in full. -/
def isTagChar (x : Char) : Bool := isWordChar x || "#;/?:@&=+$,.!~*'()[]%".toList.contains x

/-- A character of a tag's suffix. -/
def isSuffixChar (x : Char) : Bool := isTagChar x && x != '!' && !isFlowIndicator x

/-- Whether a character is a hexadecimal digit. -/
def isHexDigit (x : Char) : Bool :=
  x.isDigit || ('a' ≤ x && x ≤ 'f') || ('A' ≤ x && x ≤ 'F')

/-- Whether each percent sign stands before two hexadecimal digits. -/
def isEscaped : List Char → Bool
  | '%' :: x :: y :: rest => isHexDigit x && isHexDigit y && isEscaped rest
  | '%' :: _ => false
  | _ :: rest => isEscaped rest
  | [] => true

/-- The characters of a kind that follow, if the percent signs among them are right. -/
def tagChars (p : Char → Bool) (c : Cursor) : Except SyntaxError (String × Cursor) :=
  let (cs, d) := c.span p
  if isEscaped cs then .ok (textOf cs, d) else .error (c.error .malformedTag)

/-- The handle and the suffix of a tag that begins here. A lone exclamation mark is a suffix. -/
def tagParts (c : Cursor) : Except SyntaxError (Token × Cursor) := do
  if c.next.sees '<' then
    let (name, d) ← tagChars isTagChar c.next.next
    if !d.sees '>' then throw (c.error .malformedTag)
    return (.tag "" name, d.next)
  let (word, d) := c.next.span isWordChar
  if d.sees '!' then
    let (suffix, e) ← tagChars isSuffixChar d.next
    if suffix.isEmpty then throw (c.error .malformedTag)
    return (.tag ("!" ++ textOf word ++ "!") suffix, e)
  let (suffix, e) ← tagChars isSuffixChar d
  let whole := textOf word ++ suffix
  return (if whole.isEmpty then .tag "" "!" else .tag "!" whole, e)

/-- A tag, behind which a break follows, or a flow indicator between brackets. -/
def tag (flow : Bool) (c : Cursor) : Except SyntaxError (Token × Cursor) := do
  let (token, d) ← tagParts c
  if atBreak d.rest || (flow && d.head?.any isFlowIndicator) then return (token, d)
  throw (c.error .malformedTag)

/-! ### Directives -/

/-- A number of at most nine digits. -/
def versionNumber (c : Cursor) : Except SyntaxError Cursor :=
  let (digits, d) := c.span Char.isDigit
  if digits.isEmpty || digits.length > 9 then .error (c.error .directive) else .ok d

/-- The version behind the name of its directive: two numbers with a point between them. -/
def versionValue (c : Cursor) : Except SyntaxError (Token × Cursor) := do
  let d ← versionNumber (c.span isBlank).2
  if !d.sees '.' then throw (d.error .directive)
  return (.version, ← versionNumber d.next)

/-- The handle behind the name of its directive, and what it stands for. -/
def handleValue (c : Cursor) : Except SyntaxError (Token × Cursor) := do
  let start := (c.span isBlank).2
  if !start.sees '!' then throw (start.error .directive)
  let (word, d) := start.next.span isWordChar
  if !d.sees '!' && !word.isEmpty then throw (d.error .directive)
  let (handle, e) := if d.sees '!' then ("!" ++ textOf word ++ "!", d.next) else ("!", d)
  let begins := (e.span isBlank).2
  if !begins.head?.any (fun x => isSuffixChar x || x == '!') then throw (begins.error .directive)
  let (meaning, after) ← tagChars isTagChar begins
  if !atBreak after.rest then throw (after.error .directive)
  return (.handle handle meaning, after)

/-- A directive, from its percent sign on, with its line end. -/
def directive (c : Cursor) : Except SyntaxError (Token × Cursor) := do
  let (name, d) := c.next.span isWordChar
  if name.isEmpty || !atBreak d.rest then throw (c.error .directive)
  let (token, e) ←
    if name == "YAML".toList then versionValue d
    else if name == "TAG".toList then handleValue d
    else pure (.reserved, d.lineEnd)
  let after := (← e.gap).cursor
  if !after.atLineEnd then throw (after.error .directive)
  return (token, after.next)

end Flowsheet.Yaml
