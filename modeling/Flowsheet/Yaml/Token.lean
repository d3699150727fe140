import Flowsheet.Yaml.Problem

/-!
# Tokens

What the characters of a text come to. The beginning and end of a block collection are tokens
although nothing is written for them: they follow from the indentation (`Lexer`).
-/

namespace Flowsheet.Yaml

/-- A token. -/
inductive Token where
  /-- A directive that gives the version. -/
  | version
  /-- A directive that declares what a tag's handle stands for. -/
  | handle (name meaning : String)
  /-- Any other directive. -/
  | reserved
  /-- The marker before a document. -/
  | documentStart
  /-- The marker after a document. -/
  | documentEnd
  /-- The beginning of a block sequence. -/
  | blockSequence
  /-- The beginning of a block mapping. -/
  | blockMapping
  /-- The end of a block collection. -/
  | blockEnd
  /-- The beginning of a sequence in brackets. -/
  | openSequence
  /-- The end of a sequence in brackets. -/
  | closeSequence
  /-- The beginning of a mapping in braces. -/
  | openMapping
  /-- The end of a mapping in braces. -/
  | closeMapping
  /-- The hyphen before an item of a block sequence. -/
  | item
  /-- The comma between entries in brackets. -/
  | comma
  /-- The beginning of a key. -/
  | key
  /-- The colon before a value. -/
  | value
  /-- A name for the next node. -/
  | anchor (name : String)
  /-- The node with a name. -/
  | reference (name : String)
  /-- The kind of the next node: a handle, which may be empty, and what follows it. -/
  | tag (handle suffix : String)
  /-- A scalar; a plain one takes its meaning from its text. -/
  | scalar (text : String) (plain : Bool)
  deriving DecidableEq, Repr

/-- A token and its place. -/
structure Placed where
  /-- The token. -/
  token : Token
  /-- The line, counted from one. -/
  line : Nat
  /-- The column, counted from one. -/
  column : Nat

end Flowsheet.Yaml
