import Flowsheet.Yaml.Problem

/-!
# Places in a text

A `Cursor` is the rest of a text together with where it begins. Line ends are single line feeds
(`normalize`), a byte order mark at the start is no part of the text, and a null character ends it.

`Cursor.gap` passes over what may stand behind a token in its line, and `Cursor.advance` goes on to
the next content in any line.
-/

namespace Flowsheet.Yaml

/-- Line ends of all kinds as line feeds. -/
def normalizeLines : List Char → List Char
  | '\r' :: '\n' :: rest => '\n' :: normalizeLines rest
  | '\r' :: rest => '\n' :: normalizeLines rest
  | c :: rest => c :: normalizeLines rest
  | [] => []

/-- The characters of a text, without a byte order mark, with line feeds as line ends, and up to a
null character. -/
def normalize (text : String) : List Char :=
  normalizeLines <| List.takeWhile (· != '\x00') <| match text.toList with
    | '\uFEFF' :: rest => rest
    | cs => cs

/-! ### Kinds of characters -/

/-- A blank inside a line. -/
def isBlank (c : Char) : Bool := c == ' ' || c == '\t'

/-- Brackets, braces and commas. -/
def isFlowIndicator (c : Char) : Bool :=
  c == ',' || c == '[' || c == ']' || c == '\x7b' || c == '\x7d'

/-- Letters, digits, hyphens and low lines. -/
def isWordChar (c : Char) : Bool := c.isAlphanum || c == '-' || c == '_'

/-- Whether a blank, a line end or the end of the text follows. -/
def atBreak : List Char → Bool
  | [] => true
  | c :: _ => isBlank c || c == '\n'

/-- The characters of a list as one text. -/
def textOf (cs : List Char) : String := String.ofList cs

/-! ### Places -/

/-- A place in a text. -/
structure Cursor where
  /-- What follows. -/
  rest : List Char
  /-- The number of characters before. -/
  index : Nat
  /-- The line, counted from one. -/
  line : Nat
  /-- The column, counted from zero. -/
  column : Nat
  /-- Whether nothing but blanks stands before in the line. -/
  fresh : Bool

namespace Cursor

/-- The start of a text. -/
def start (cs : List Char) : Cursor := ⟨cs, 0, 1, 0, true⟩

/-- Whether the text is over. -/
def atEnd (c : Cursor) : Bool := c.rest.isEmpty

/-- The next character. -/
def head? (c : Cursor) : Option Char := c.rest.head?

/-- Whether a character stands here. -/
def sees (c : Cursor) (x : Char) : Bool := c.rest.head? == some x

/-- Whether the line, or the text, is over. -/
def atLineEnd (c : Cursor) : Bool := c.atEnd || c.sees '\n'

/-- Whether a sign with a break behind it stands here. -/
def atSign (c : Cursor) (sign : Char) : Bool := c.sees sign && atBreak (c.rest.drop 1)

/-- Whether three hyphens or three points stand here, with a break behind them. -/
def marks (c : Cursor) (mark : Char) : Bool :=
  match c.rest with
  | x :: y :: z :: rest => x == mark && y == mark && z == mark && atBreak rest
  | _ => false

/-- Whether a document marker stands here, which it does at the start of a line only. -/
def atMarker (c : Cursor) : Bool := c.column == 0 && (c.marks '-' || c.marks '.')

/-- The place after one character. -/
def next (c : Cursor) : Cursor :=
  match c.rest with
  | [] => c
  | '\n' :: rest => ⟨rest, c.index + 1, c.line + 1, 0, true⟩
  | x :: rest => ⟨rest, c.index + 1, c.line, c.column + 1, c.fresh && isBlank x⟩

/-- The place after `n` characters. -/
def forward (c : Cursor) : Nat → Cursor
  | 0 => c
  | n + 1 => c.next.forward n

/-- The characters with a property that follow, and the place after them. -/
def span (c : Cursor) (p : Char → Bool) : List Char × Cursor :=
  let cs := c.rest.takeWhile p
  (cs, c.forward cs.length)

/-- The place at the end of the line. -/
def lineEnd (c : Cursor) : Cursor := (c.span (· != '\n')).2

/-- An error at this place. -/
def error (c : Cursor) (problem : Problem) : SyntaxError := ⟨problem, c.line, c.column + 1⟩

/-! ### Blanks and comments -/

/-- What stands between a token and the rest of its line. -/
structure Gap where
  /-- Whether a tab is in it. -/
  tab : Bool
  /-- Whether a space is in it. -/
  space : Bool
  /-- The place behind it. -/
  cursor : Cursor

/-- Passes over blanks and a comment. Behind a token a comment begins after a blank only. -/
def gap (c : Cursor) : Except SyntaxError Gap :=
  let (blanks, d) := c.span isBlank
  let tab := blanks.contains '\t'
  let space := blanks.contains ' '
  if !d.sees '#' then .ok ⟨tab, space, d⟩
  else if blanks.isEmpty then .error (d.error .joinedComment)
  else .ok ⟨tab, space, d.lineEnd⟩

/-- Passes over spaces, line ends and comments, in at most `n` steps, and tells whether a line has
ended. -/
def skipSpaces : (n : Nat) → Cursor → (ended : Bool) → Cursor × Bool
  | 0, c, ended => (c, ended)
  | n + 1, c, ended =>
    match c.rest with
    | '\n' :: _ => skipSpaces n c.next true
    | ' ' :: _ => skipSpaces n c.next ended
    | '#' :: _ => skipSpaces n c.lineEnd ended
    | _ => (c, ended)

/-- Passes over blanks, line ends and comments to the next content, in at most `n` steps, and tells
whether a line has ended before it. Left of the column `margin` a tab may not stand before content
of a block. -/
def advance (margin : Option Int) : (n : Nat) → Cursor → (ended : Bool) →
    Except SyntaxError (Cursor × Bool)
  | 0, c, ended => .ok (c, ended)
  | n + 1, c, ended =>
    match c.rest with
    | '\n' :: _ => advance margin n c.next true
    | ' ' :: _ => advance margin n c.next ended
    | '#' :: _ => advance margin n c.lineEnd ended
    | '\t' :: _ =>
      if c.fresh && margin.any ((c.column : Int) < ·) then do
        let g ← c.gap
        if g.cursor.atLineEnd then advance margin n g.cursor ended
        else .error (g.cursor.error .tabIndentation)
      else advance margin n c.next ended
    | _ => .ok (c, ended)

end Cursor

end Flowsheet.Yaml
