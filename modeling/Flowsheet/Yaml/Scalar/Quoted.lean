import Flowsheet.Yaml.Scalar.Spacing

/-!
# Scalars in quotes

Between single quotes a quote is written twice, and between double quotes a backslash begins an
escape. A backslash at the end of a line joins it to the next without a blank.

In a block the lines of a quoted scalar are indented deeper than the block, up to the line with the
closing quote and except for lines that a backslash joins.
-/

namespace Flowsheet.Yaml

/-! ### Escapes -/

/-- The value of a hexadecimal digit. -/
def hexDigit? (c : Char) : Option Nat :=
  if c.isDigit then some (c.toNat - '0'.toNat)
  else if 'a' ≤ c ∧ c ≤ 'f' then some (c.toNat - 'a'.toNat + 10)
  else if 'A' ≤ c ∧ c ≤ 'F' then some (c.toNat - 'A'.toNat + 10)
  else none

/-- The number that the next `count` hexadecimal digits stand for. -/
def hexNumber? (count : Nat) (cs : List Char) : Option Nat :=
  let digits := (cs.take count).filterMap hexDigit?
  if digits.length = count then some (digits.foldl (fun acc d => acc * 16 + d) 0) else none

/-- The character with a code. -/
def charOf? (code : Nat) : Option Char :=
  if code.isValidChar then some (Char.ofNat code) else none

/-- The code that two codes stand for together, if they are the halves of one. -/
def joinHalves? (high low : Nat) : Option Nat :=
  if 0xD800 ≤ high ∧ high < 0xDC00 ∧ 0xDC00 ≤ low ∧ low < 0xE000 then
    some (0x10000 + (high - 0xD800) * 0x400 + (low - 0xDC00))
  else none

/-- The character that an escape of one letter stands for. -/
def simpleEscape? : Char → Option Char
  | '0' => some '\x00'
  | 'a' => some '\x07'
  | 'b' => some '\x08'
  | 't' | '\t' => some '\t'
  | 'n' => some '\n'
  | 'v' => some '\x0b'
  | 'f' => some '\x0c'
  | 'r' => some '\r'
  | 'e' => some '\x1b'
  | ' ' => some ' '
  | '"' => some '"'
  | '/' => some '/'
  | '\\' => some '\\'
  | 'N' => some '\u0085'
  | '_' => some '\u00a0'
  | 'L' => some '\u2028'
  | 'P' => some '\u2029'
  | _ => none

/-- The character that an escape of four digits stands for, and its length without the first letter.
Two such escapes may give one character. -/
def unicodeEscape? (cs : List Char) : Option (Char × Nat) :=
  (hexNumber? 4 cs).bind fun code =>
    match charOf? code, cs.drop 4 with
    | some x, _ => some (x, 4)
    | none, '\\' :: 'u' :: rest =>
      ((hexNumber? 4 rest).bind (joinHalves? code)).bind fun both =>
        (charOf? both).map fun x => (x, 10)
    | none, _ => none

/-- The character that an escape stands for, and its length without the backslash. -/
def escape? : List Char → Option (Char × Nat)
  | 'x' :: rest => ((hexNumber? 2 rest).bind charOf?).map fun x => (x, 3)
  | 'u' :: rest => (unicodeEscape? rest).map fun (x, n) => (x, n + 1)
  | 'U' :: rest => ((hexNumber? 8 rest).bind charOf?).map fun x => (x, 9)
  | c :: _ => (simpleEscape? c).map fun x => (x, 1)
  | [] => none

/-! ### Quotes -/

/-- The place a quoted scalar stands in. -/
structure Setting where
  /-- Its quote. -/
  quote : Char
  /-- Whether it stands between brackets. -/
  flow : Bool
  /-- The indentation of the block around it. -/
  indent : Int

/-- White space between quotes. -/
def Setting.space (q : Setting) (n : Nat) (c : Cursor) : Except SyntaxError Spacing := do
  let s ← (Spacing.none c).extend false q.indent n
  if s.breaks > 0 && !q.flow && !s.cursor.sees q.quote && (s.cursor.column : Int) ≤ q.indent then
    throw (s.cursor.error .wrongIndentation)
  return s

/-- The characters up to the closing quote, in at most `n` steps; `acc` is reversed. -/
def Setting.chars (q : Setting) : (n : Nat) → Cursor → (acc : List Char) →
    Except SyntaxError (List Char × Cursor)
  | 0, c, _ => .error (c.error .unclosedQuote)
  | n + 1, c, acc =>
    if c.atMarker then .error (c.error .unclosedQuote)
    else match c.rest with
    | [] => .error (c.error .unclosedQuote)
    | x :: rest =>
      if x == q.quote then
        if x == '\'' && rest.head? == some '\'' then q.chars n (c.forward 2) ('\'' :: acc)
        else .ok (acc.reverse, c.next)
      else if x == '\\' && q.quote == '"' then
        if rest.head? == some '\n' then do
          let s ← (Spacing.none (c.forward 2)).extend false q.indent n
          q.chars n s.cursor (List.replicate s.breaks '\n' ++ acc)
        else match escape? rest with
          | some (y, k) => q.chars n (c.forward (k + 1)) (y :: acc)
          | none => .error (c.error .unknownEscape)
      else if isBlank x || x == '\n' then do
        let s ← q.space n c
        q.chars n s.cursor (s.text ++ acc)
      else q.chars n c.next (x :: acc)

/-- Whether a quoted scalar that began in line `first` may end before this place. In a block only
a colon may follow, and only in the line in which the scalar began. -/
def Setting.endsAt (q : Setting) (first : Nat) (c : Cursor) : Bool :=
  c.atLineEnd
    || (q.flow && (c.sees ',' || c.sees ']' || c.sees '\x7d' || c.sees ':'))
    || (!q.flow && c.sees ':' && c.line == first)

/-- A quoted scalar, from its opening quote on, with the gap behind it. -/
def quoted (q : Setting) (n : Nat) (c : Cursor) : Except SyntaxError (String × Cursor) := do
  let (cs, d) ← q.chars n c.next []
  let g ← d.gap
  if !q.endsAt c.line g.cursor then throw (g.cursor.error .afterQuote)
  return (textOf cs, g.cursor)

end Flowsheet.Yaml
