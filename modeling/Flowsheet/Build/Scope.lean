import Flowsheet.Fault.Cause

/-!
# Tolerant and strict building

The mode of a build is consulted in one place only, `Scope.fail`: a failed supply becomes a fault to
record, or the error that ends the build.
-/

namespace Flowsheet

/-- What a build does with a field that cannot be supplied. -/
inductive BuildMode where
  /-- Store a fallback and record a fault. -/
  | tolerant
  /-- End with the first failure. -/
  | strict
  deriving DecidableEq, Repr, Inhabited

/-- The entity that is being built, and how. -/
structure Scope where
  /-- The entity's name in error texts. -/
  entity : String
  /-- The mode of the build. -/
  mode : BuildMode
  deriving DecidableEq, Repr, Inhabited

/-- What a failed supply of `key` comes to. -/
def Scope.fail (scope : Scope) (key : FaultKey) (cause : Cause) : Except BuildError Fault :=
  match scope.mode with
  | .tolerant => .ok ⟨cause⟩
  | .strict => .error (.strict scope.entity key cause)

end Flowsheet
