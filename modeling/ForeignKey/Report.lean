import ForeignKey.Failure
import ForeignKey.Location

/-!
# Reports

The result of a validation: located violations, and the diagnostics of the rule set.
-/

namespace ForeignKey

/-- How serious a diagnostic is. -/
inductive Severity where
  | error
  | warning
  deriving DecidableEq

/-- The name of a severity. -/
def Severity.text : Severity → String
  | .error => "error"
  | .warning => "warning"

/-- A message about a rule set, with the place in it that the message is about. -/
structure Diagnostic where
  severity : Severity
  code : String
  path? : Option String
  message : String
  deriving DecidableEq

/-- A value of the target that failed its check. -/
structure Violation where
  code : String
  kind : FailureKind
  /-- The location of the value in the target. -/
  path : String
  message : String
  value? : Option Value

namespace Violation

/-- The violation of a failure at a location. -/
def ofFailure (location : Location) (f : Failure) : Violation :=
  ⟨f.code, f.kind, location.text, f.message, f.value?⟩

/-- A violation in one line. -/
def text (v : Violation) : String := v.code ++ " at " ++ v.path ++ ": " ++ v.message

end Violation

/-- The violations of a target and the warnings of its rule set. -/
structure Report where
  errors : List Violation
  warnings : List Diagnostic

namespace Report

/-- Whether nothing is violated. Warnings do not count. -/
def isValid (r : Report) : Bool := r.errors.isEmpty

/-- Whether some check had no document to look in. -/
def isMisconfigured (r : Report) : Bool := r.errors.any (·.kind == .missingContext)

end Report

end ForeignKey
