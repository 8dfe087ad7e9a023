import ForeignKey.Record
import ForeignKey.Report

/-!
# The serialized form of reports

Reports, violations and diagnostics are objects with their fields in the order of declaration; an
absent path or value is left out. Reading them ignores fields that they do not have. A violation
whose value is null reads back without a value, since null stands for absence there.
-/

namespace ForeignKey

/-- An entry that is there only if it has a content. -/
def optionalEntry {α : Type} (name : String) (form : α → Value) (a? : Option α) :
    List (String × Value) :=
  (a?.map fun a => (name, form a)).toList

namespace Severity

/-- The severities by name. -/
def choices : List (String × Severity) := [("error", .error), ("warning", .warning)]

/-- Reads a severity. -/
def ofValue : Value → Reading Severity := readChoice choices

/-- The form of a severity. -/
def toValue (s : Severity) : Value := .string s.text

end Severity

namespace FailureKind

/-- The kinds of failure by name. -/
def choices : List (String × FailureKind) :=
  [("no_context", .missingContext), ("fk_not_found", .notFound)]

/-- Reads a kind of failure. -/
def ofValue : Value → Reading FailureKind := readChoice choices

/-- The form of a kind of failure. -/
def toValue (k : FailureKind) : Value := .string k.text

end FailureKind

namespace Diagnostic

/-- The severity. -/
def severityField : Field Severity := .required "severity" Severity.ofValue

/-- The code. -/
def codeField : Field String := .required "code" readText

/-- The place in the rule set. -/
def pathField : Field (Option String) := .optional "path" readText

/-- The message. -/
def messageField : Field String := .required "message" readText

/-- The shape of a diagnostic. -/
def shape : RecordShape :=
  ⟨"Diagnostic", false,
    [severityField.shape, codeField.shape, pathField.shape, messageField.shape]⟩

/-- Reads a diagnostic. -/
def ofValue (v : Value) : Reading Diagnostic := do
  let entries ← shape.entries v
  return ⟨← severityField.get entries, ← codeField.get entries, ← pathField.get entries,
    ← messageField.get entries⟩

/-- The form of a diagnostic. -/
def toValue (d : Diagnostic) : Value :=
  .object ([("severity", d.severity.toValue), ("code", .string d.code)]
    ++ optionalEntry "path" .string d.path? ++ [("message", .string d.message)])

end Diagnostic

namespace Violation

/-- The code. -/
def codeField : Field String := .required "code" readText

/-- The kind of failure. -/
def kindField : Field FailureKind := .required "kind" FailureKind.ofValue

/-- The location in the target. -/
def pathField : Field String := .required "path" readText

/-- The message. -/
def messageField : Field String := .required "message" readText

/-- The value that was not found. -/
def valueField : Field (Option Value) := .optional "value" .ok

/-- The shape of a violation. -/
def shape : RecordShape :=
  ⟨"ValidationError", false,
    [codeField.shape, kindField.shape, pathField.shape, messageField.shape, valueField.shape]⟩

/-- Reads a violation. -/
def ofValue (v : Value) : Reading Violation := do
  let entries ← shape.entries v
  return ⟨← codeField.get entries, ← kindField.get entries, ← pathField.get entries,
    ← messageField.get entries, ← valueField.get entries⟩

/-- The form of a violation. -/
def toValue (e : Violation) : Value :=
  .object ([("code", .string e.code), ("kind", e.kind.toValue), ("path", .string e.path),
    ("message", .string e.message)] ++ optionalEntry "value" id e.value?)

end Violation

namespace Report

/-- The violations. -/
def errorsField : Field (List Violation) := .required "errors" (readList Violation.ofValue)

/-- The warnings. -/
def warningsField : Field (List Diagnostic) := .required "warnings" (readList Diagnostic.ofValue)

/-- The shape of a report. -/
def shape : RecordShape := ⟨"ValidationResult", false, [errorsField.shape, warningsField.shape]⟩

/-- Reads a report. -/
def ofValue (v : Value) : Reading Report := do
  let entries ← shape.entries v
  return ⟨← errorsField.get entries, ← warningsField.get entries⟩

/-- The form of a report. -/
def toValue (r : Report) : Value :=
  .object [("errors", .array (r.errors.map Violation.toValue)),
    ("warnings", .array (r.warnings.map Diagnostic.toValue))]

end Report

end ForeignKey
