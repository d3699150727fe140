import Flowsheet.Fault.Key

/-!
# Causes, faults and fatal errors

A `FieldError` says why one field could not be read. Anything that went wrong while a value was
being supplied is a `Cause`; a `Fault` is a cause that was recorded. A `BuildError` ends a whole
build or load. Causes and fatal errors contain each other, since a nested build may fail in the
middle of a supply. All wording is in the `message` functions of this module.

Two faults count as equal (`==`) when their messages are equal.
-/

namespace Flowsheet

/-! ### Diagnostics -/

/-- The stable classes of diagnostics. -/
inductive DiagnosticCode where
  /-- The text is no document, or its root is no mapping. -/
  | parseFailure
  /-- A required field is absent or null. -/
  | missingField
  /-- A field is present and its value cannot be used. -/
  | invalidValue
  /-- A supply failed for a reason other than the document. -/
  | supplyFailure
  deriving DecidableEq, Repr, Inhabited

/-- The written form of a code. -/
def DiagnosticCode.text : DiagnosticCode → String
  | parseFailure => "workflow.parse_failure"
  | missingField => "workflow.missing_field"
  | invalidValue => "workflow.invalid_value"
  | supplyFailure => "workflow.supply_failure"

/-- What a diagnostic points at. -/
inductive DiagnosticPosition where
  /-- A place in a text, counted from one. -/
  | location (line column : Nat)
  /-- A place in a loaded workflow. -/
  | path (path : FaultPath)
  deriving DecidableEq, Repr, Inhabited

/-- One reported problem. -/
structure Diagnostic where
  /-- Its class. -/
  code : DiagnosticCode
  /-- The label of the text that was loaded. -/
  source : String
  /-- What it points at. -/
  position : DiagnosticPosition
  /-- What is wrong. -/
  message : String
  deriving DecidableEq, Repr, Inhabited

/-- The written form of a diagnostic: code, place and message between bars. -/
def Diagnostic.text (d : Diagnostic) : String :=
  let place := match d.position with
    | .location line column => ":" ++ toString line ++ ":" ++ toString column
    | .path path => "#" ++ path.text
  d.code.text ++ " | " ++ d.source ++ place ++ " | " ++ d.message

/-! ### Field errors -/

/-- Why a single field could not be read. -/
inductive FieldError where
  /-- A required field was not given. -/
  | missing (field : String)
  /-- A value of another shape was found. -/
  | mismatch (expected found : String)
  /-- A number is outside the type that the field has. -/
  | outOfRange (value target : String)
  /-- A text names no variant of an enumeration. -/
  | unknownVariant (kind value : String)
  /-- A text is no identifier. -/
  | invalidIdentifier (identifier reason : String)
  deriving DecidableEq, Repr, Inhabited

/-- The wording of a field error. -/
def FieldError.message : FieldError → String
  | missing field => "required field '" ++ field ++ "' is missing"
  | mismatch expected found => "expected " ++ expected ++ ", found " ++ found
  | outOfRange value target => "value " ++ value ++ " is out of range for " ++ target
  | unknownVariant kind value => "unknown " ++ kind ++ " '" ++ value ++ "'"
  | invalidIdentifier identifier reason => "invalid identifier '" ++ identifier ++ "': " ++ reason

/-! ### Causes and fatal errors -/

mutual

/-- Why a value could not be supplied. -/
inductive Cause where
  /-- A reason in words. -/
  | text (message : String)
  /-- A failure of the file system. -/
  | system (message : String)
  /-- A field that could not be read. -/
  | field (error : FieldError)
  /-- A fault that was recorded earlier, with its cause. -/
  | fault (cause : Cause)
  /-- A build that ended. -/
  | build (error : BuildError)

/-- Why a whole build or load ended. -/
inductive BuildError where
  /-- A strict build met a field that could not be supplied. -/
  | strict (entity : String) (key : FaultKey) (cause : Cause)
  /-- A text is no document. -/
  | unreadable (message : String) (diagnostic : Option Diagnostic)
  /-- A file could not be read. -/
  | unopened (path message : String)

end

mutual

/-- The wording of a cause. -/
def Cause.message : Cause → String
  | .text message => message
  | .system message => message
  | .field error => error.message
  | .fault cause => cause.message
  | .build error => error.message

/-- The wording of a fatal error. -/
def BuildError.message : BuildError → String
  | .strict entity key cause =>
    "strict build of " ++ entity ++ " failed at '" ++ key.text ++ "': " ++ cause.message
  | .unreadable message _ => "YAML deserialization failed: " ++ message
  | .unopened path message => "failed to read '" ++ path ++ "': " ++ message

end

mutual

/-- The messages of the reasons behind a cause, nearest first, the cause itself not included. -/
def Cause.reasons : Cause → List String
  | .fault cause => cause.message :: cause.reasons
  | .build error => error.reasons
  | .text _ | .system _ | .field _ => []

/-- The messages of the reasons behind a fatal error, nearest first. -/
def BuildError.reasons : BuildError → List String
  | .strict _ _ cause => cause.message :: cause.message :: cause.reasons
  | .unreadable _ _ => []
  | .unopened _ message => [message]

end

/-- The diagnostic that an unreadable text comes with. -/
def BuildError.diagnostic? : BuildError → Option Diagnostic
  | .unreadable _ diagnostic => diagnostic
  | .strict .. | .unopened .. => none

/-! ### Faults -/

/-- One recorded failure to supply one value. -/
structure Fault where
  /-- Why the value could not be supplied. -/
  cause : Cause

namespace Fault

/-- The wording of a fault is that of its cause. -/
def message (fault : Fault) : String := fault.cause.message

/-- The messages of the reasons behind a fault: its cause first, then the reasons behind that. -/
def reasons (fault : Fault) : List String := fault.cause.message :: fault.cause.reasons

/-- Faults are compared by message. -/
instance : BEq Fault := ⟨fun a b => a.message == b.message⟩

/-- The field error that a fault records, if its cause is one. -/
def fieldError? (fault : Fault) : Option FieldError :=
  match fault.cause with
  | .field error => some error
  | _ => none

/-- The fault of a required field that was not given. -/
def missing (field : String) : Fault := ⟨.field (.missing field)⟩

/-- The class of diagnostic that a fault is reported as. -/
def code (fault : Fault) : DiagnosticCode :=
  match fault.fieldError? with
  | some (.missing _) => .missingField
  | some _ => .invalidValue
  | none => .supplyFailure

end Fault

/-- The fault that ended a strict build. -/
def BuildError.fault? : BuildError → Option Fault
  | .strict _ _ cause => some ⟨cause⟩
  | .unreadable .. | .unopened .. => none

end Flowsheet
