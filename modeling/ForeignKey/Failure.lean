import ForeignKey.Json.Writer
import ForeignKey.Rule

/-!
# Failures of a check

A check fails in two ways: nobody said in which document to look, or the value is not there.
-/

namespace ForeignKey

/-- The ways in which a check fails. -/
inductive FailureKind where
  /-- There was no context with a document to look in. -/
  | missingContext
  /-- No pattern reaches the value. -/
  | notFound
  deriving DecidableEq

/-- The name of a kind of failure, the last part of error codes. -/
def FailureKind.text : FailureKind → String
  | .missingContext => "no_context"
  | .notFound => "fk_not_found"

/-- Why a check failed. -/
inductive Failure where
  | missingContext (base : BaseType)
  | notFound (base : BaseType) (value : Value) (paths : ReferencePaths)

namespace Failure

/-- The kind of a failure. -/
def kind : Failure → FailureKind
  | .missingContext .. => .missingContext
  | .notFound .. => .notFound

/-- The base type of the rule that failed. -/
def base : Failure → BaseType
  | .missingContext base => base
  | .notFound base _ _ => base

/-- The value that was not found. -/
def value? : Failure → Option Value
  | .missingContext _ => none
  | .notFound _ value _ => some value

/-- The stable code of a failure, such as `string.fk_not_found`. -/
def code (f : Failure) : String := f.base.text ++ "." ++ f.kind.text

/-- The message of a failure. -/
def message : Failure → String
  | .missingContext _ =>
    "the document to look for references in must be supplied in the validation context"
  | .notFound _ value paths =>
    "\"" ++ value.display ++ "\" could not be found as a reference to \"" ++ paths.text ++ "\""

end Failure

end ForeignKey
