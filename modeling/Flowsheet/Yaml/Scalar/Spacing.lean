import Flowsheet.Yaml.Cursor

/-!
# White space inside a scalar

A plain or quoted scalar may go on over several lines. A single line end between its words reads as
a blank, and of several the first reads as nothing; blanks around line ends are no part of the
scalar.
-/

namespace Flowsheet.Yaml

/-- White space inside a scalar. -/
structure Spacing where
  /-- The blanks before the first line end, the last of them first. -/
  blanks : List Char
  /-- The number of line ends. -/
  breaks : Nat
  /-- The place behind. -/
  cursor : Cursor

namespace Spacing

/-- No white space so far. -/
def none (c : Cursor) : Spacing := ⟨[], 0, c⟩

/-- What it reads as, in reversed order. -/
def text (s : Spacing) : List Char :=
  if s.breaks = 0 then s.blanks
  else if s.breaks = 1 then [' ']
  else List.replicate (s.breaks - 1) '\n'

/-- Passes over white space in at most `n` steps. Left of the column `margin` a tab stands only in
an empty line, and only if the scalar is `lenient`. -/
def extend (lenient : Bool) (margin : Int) : (n : Nat) → Spacing → Except SyntaxError Spacing
  | 0, s => .ok s
  | n + 1, s =>
    let c := s.cursor
    match c.rest with
    | [] => .ok s
    | x :: _ =>
      if x == '\n' then extend lenient margin n { s with breaks := s.breaks + 1, cursor := c.next }
      else if !isBlank x then .ok s
      else if !c.fresh then
        extend lenient margin n { s with blanks := x :: s.blanks, cursor := c.next }
      else if x == '\t' && (c.column : Int) < margin then
        match lenient, c.gap with
        | true, .ok g =>
          if g.cursor.atLineEnd then extend lenient margin n { s with cursor := g.cursor }
          else .error (c.error .tabIndentation)
        | _, _ => .error (c.error .tabIndentation)
      else extend lenient margin n { s with cursor := c.next }

end Spacing

end Flowsheet.Yaml
