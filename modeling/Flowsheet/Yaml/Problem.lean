/-!
# What can be wrong with a text

The reasons for which a text is no document, each with its wording.
-/

namespace Flowsheet.Yaml

/-- Why a text is no document. -/
inductive Problem where
  /-- A quote is not closed. -/
  | unclosedQuote
  /-- Something follows a closing quote. -/
  | afterQuote
  /-- A bracket or brace closes none. -/
  | unopenedBracket
  /-- A collection in brackets is nested too deep. -/
  | deepBrackets
  /-- A tab stands where indentation decides. -/
  | tabIndentation
  /-- A tab stands between a sign and what it introduces. -/
  | tabSeparation
  /-- A line is indented in a way that fits no open block. -/
  | wrongIndentation
  /-- A comment follows another character. -/
  | joinedComment
  /-- A character can begin no value here. -/
  | unexpected (c : Char)
  /-- A sign of a block stands where none may begin. -/
  | misplaced (c : Char)
  /-- A key has no colon on its line. -/
  | missingColon
  /-- A key in a bracketed sequence and its colon stand on different lines. -/
  | splitKey
  /-- A backslash is followed by no known escape. -/
  | unknownEscape
  /-- The head of a block scalar has something else in it. -/
  | blockScalarHead
  /-- A folded block scalar is not indented. -/
  | flushFolding
  /-- A comment stands between two lines of a plain scalar. -/
  | brokenScalar
  /-- An anchor or alias has no name. -/
  | emptyName
  /-- A tag is malformed. -/
  | malformedTag
  /-- A tag begins with a handle that no directive declares. -/
  | undeclaredHandle (handle : String)
  /-- An alias names no finished anchor before it. -/
  | undefinedAlias (name : String)
  /-- Aliases make up too much of the text. -/
  | tooManyAliases
  /-- A directive is malformed or not followed by the start of the document. -/
  | directive
  /-- Something stands where it has no meaning. -/
  | trailing
  /-- The text ends inside a value. -/
  | unfinished
  /-- A second document follows. -/
  | secondDocument
  /-- A key is a sequence or a mapping. -/
  | keyNotScalar
  /-- A key is null. -/
  | nullKey
  /-- A mapping has a key twice. -/
  | duplicateKey (key : String)
  /-- What is merged into a mapping is no mapping. -/
  | mergedValue
  /-- Collections are nested too deep. -/
  | tooDeep
  deriving DecidableEq, Repr

/-- The wording of a problem. -/
def Problem.message : Problem → String
  | unclosedQuote => "quoted scalar is not closed"
  | afterQuote => "unexpected content after a quoted scalar"
  | unopenedBracket => "misplaced closing bracket"
  | deepBrackets => "flow collections are nested too deep"
  | tabIndentation => "tab used as indentation"
  | tabSeparation => "tab used as separation"
  | wrongIndentation => "wrong indentation"
  | joinedComment => "comment must follow a blank"
  | unexpected c => "unexpected character '" ++ String.singleton c ++ "'"
  | misplaced c => "'" ++ String.singleton c ++ "' is not allowed here"
  | missingColon => "mapping key has no ':'"
  | splitKey => "mapping key and ':' are on different lines"
  | unknownEscape => "unknown escape in quoted scalar"
  | blockScalarHead => "malformed block scalar header"
  | flushFolding => "folded block scalar must be indented"
  | brokenScalar => "comment inside a plain scalar"
  | emptyName => "anchor or alias without a name"
  | malformedTag => "malformed tag"
  | undeclaredHandle handle => "undeclared tag handle '" ++ handle ++ "'"
  | undefinedAlias name => "undefined alias '" ++ name ++ "'"
  | tooManyAliases => "too many aliases"
  | directive => "malformed directive"
  | trailing => "unexpected content"
  | unfinished => "unexpected end of text"
  | secondDocument => "only one document is allowed"
  | keyNotScalar => "mapping key is not a scalar"
  | nullKey => "mapping key is null"
  | duplicateKey key => "duplicate mapping key '" ++ key ++ "'"
  | mergedValue => "only mappings can be merged"
  | tooDeep => "nesting is too deep"

/-- A problem and where it was found, counted from one. -/
structure SyntaxError where
  /-- What is wrong. -/
  problem : Problem
  /-- The line. -/
  line : Nat
  /-- The column. -/
  column : Nat
  deriving DecidableEq, Repr

end Flowsheet.Yaml
