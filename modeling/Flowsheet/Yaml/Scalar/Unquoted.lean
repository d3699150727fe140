import Flowsheet.Yaml.Scalar.Spacing

/-!
# Scalars without quotes

A plain scalar ends at a colon with a break behind it, at a comment and at a document marker,
between brackets also at brackets, braces and commas, and in a block at a line that is indented less
than `margin`.
-/

namespace Flowsheet.Yaml

/-- Whether a character ends a plain scalar, given what follows it. -/
def endsPlain (flow : Bool) (x : Char) (rest : List Char) : Bool :=
  (x == ':' && (atBreak rest || (flow && rest.head?.any isFlowIndicator)))
    || (flow && isFlowIndicator x)

/-- The word of a plain scalar that begins here. -/
def plainWord (flow : Bool) : List Char → List Char
  | [] => []
  | x :: rest =>
    if isBlank x || x == '\n' || endsPlain flow x rest then [] else x :: plainWord flow rest

/-- The words of a plain scalar that follow here, in at most `n` steps. What has been read so far
and the white space behind it are in reversed order. -/
def plainWords (flow : Bool) (margin : Int) : (n : Nat) → Cursor → (acc space : List Char) →
    Except SyntaxError (List Char × Cursor)
  | 0, c, acc, _ => .ok (acc, c)
  | n + 1, c, acc, space =>
    if c.atMarker || c.sees '#' then .ok (acc, c)
    else if flow && c.sees '-' && (c.rest.drop 1).head?.any isFlowIndicator then
      .error (c.error (.unexpected '-'))
    else
      let word := plainWord flow c.rest
      let acc := if word.isEmpty then acc else word.reverse ++ (space ++ acc)
      let d := c.forward word.length
      if d.atEnd || !atBreak d.rest then .ok (acc, d)
      else do
        let s ← (Spacing.none d).extend true margin n
        if !flow && (s.cursor.column : Int) < margin then return (acc, s.cursor)
        plainWords flow margin n s.cursor acc s.text

/-- A plain scalar in a block or bracket whose content stands at `margin` or right of it. -/
def plain (flow : Bool) (margin : Int) (n : Nat) (c : Cursor) :
    Except SyntaxError (String × Cursor) := do
  if flow && (c.column : Int) < margin then throw (c.error .wrongIndentation)
  let (acc, d) ← plainWords flow margin n c [] []
  match acc, c.head? with
  | [], some x => throw (c.error (.unexpected x))
  | _, _ => return (textOf acc.reverse, d)

end Flowsheet.Yaml
