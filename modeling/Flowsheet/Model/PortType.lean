import Flowsheet.Fault.Cause

/-!
# Port type ids

A port type is named like a class: segments between dots, each a letter, underscore or dollar sign
followed by such characters and digits, all of them ASCII, and none a reserved word.
`PortType.check` decides this segment by segment and says what is wrong with the first bad one. A
`PortType` is a text that passed.
-/

namespace Flowsheet

namespace PortType

/-- Words that cannot be a segment. -/
def reservedWords : List String :=
  ["abstract", "assert", "boolean", "break", "byte", "case", "catch", "char", "class", "const",
    "continue", "default", "do", "double", "else", "enum", "extends", "final", "finally",
    "float", "for", "goto", "if", "implements", "import", "instanceof", "int", "interface",
    "long", "native", "new", "package", "private", "protected", "public", "return", "short",
    "static", "strictfp", "super", "switch", "synchronized", "this", "throw", "throws",
    "transient", "try", "void", "volatile", "while", "true", "false", "null", "_"]

/-- What a text between dots consists of: the part before the first dot, and the parts after it. -/
def split : List Char → List Char × List (List Char)
  | [] => ([], [])
  | c :: rest =>
    let (first, others) := split rest
    if c = '.' then ([], first :: others) else (c :: first, others)

/-- The segments of a text, at least one. -/
def segments (text : String) : List (List Char) :=
  let (first, others) := split text.toList
  first :: others

/-- Characters that a segment may begin with. -/
def isStart (c : Char) : Bool := c.isAlpha || c == '_' || c == '$'

/-- Characters that a segment may go on with. -/
def isPart (c : Char) : Bool := c.isAlphanum || c == '_' || c == '$'

/-- Whether a segment is made of the right characters. -/
def matchesPattern : List Char → Bool
  | [] => false
  | c :: rest => isStart c && rest.all isPart

/-- What is wrong with a segment. -/
def segmentProblem? (segment : List Char) : Option String :=
  if segment.isEmpty then some "identifier must not contain empty segments"
  else if !matchesPattern segment then
    some ("every segment must match the pattern ^[A-Za-z_$][A-Za-z0-9_$]*$ "
      ++ "(ASCII letters, digits, underscores and dollar signs; must not start with a digit)")
  else if reservedWords.contains (String.ofList segment) then
    some ("segment '" ++ String.ofList segment ++ "' is a Java reserved word")
  else none

/-- What is wrong with a text as a port type id, by its first bad segment. -/
def problem? (text : String) : Option String :=
  if text.isEmpty then some "identifier must not be empty"
  else (segments text).findSome? segmentProblem?

/-- Decides whether a text is a port type id. -/
def check (text : String) : Except FieldError Unit :=
  match problem? text with
  | some reason => .error (.invalidIdentifier text reason)
  | none => .ok ()

end PortType

/-- A port type id. -/
structure PortType where
  /-- The id as it is written. -/
  text : String
  /-- Nothing is wrong with it. -/
  valid : PortType.problem? text = none
  deriving DecidableEq

namespace PortType

/-- The port type id that a text is, or what is wrong with the text. -/
def ofText (text : String) : Except FieldError PortType :=
  match h : problem? text with
  | some reason => .error (.invalidIdentifier text reason)
  | none => .ok ⟨text, h⟩

/-- The last segment. -/
def simpleName (p : PortType) : String := String.ofList ((segments p.text).getLastD [])

end PortType

end Flowsheet
