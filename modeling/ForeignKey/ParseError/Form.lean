import ForeignKey.ParseError
import ForeignKey.Report.Form

/-!
# The serialized form of parse errors
-/

namespace ForeignKey

namespace ParseErrorKind

/-- The kinds by name. -/
def choices : List (String × ParseErrorKind) :=
  [("syntax", .malformed), ("type_mismatch", .typeMismatch), ("unknown_field", .unknownField)]

/-- Reads a kind. -/
def ofValue : Value → Reading ParseErrorKind := readChoice choices

/-- The form of a kind. -/
def toValue (k : ParseErrorKind) : Value := .string k.text

end ParseErrorKind

namespace ParseError

/-- The kind. -/
def kindField : Field ParseErrorKind := .required "kind" ParseErrorKind.ofValue

/-- The message. -/
def messageField : Field String := .required "message" readText

/-- The place in the text. -/
def pathField : Field (Option String) := .optional "path" readText

/-- The number of the line. -/
def lineField : Field (Option Nat) := .optional "line" readCount

/-- The shape of a parse error. -/
def shape : RecordShape :=
  ⟨"ParseError", false, [kindField.shape, messageField.shape, pathField.shape, lineField.shape]⟩

/-- Reads a parse error. -/
def ofValue (v : Value) : Reading ParseError := do
  let entries ← shape.entries v
  return ⟨← kindField.get entries, ← messageField.get entries, ← pathField.get entries,
    ← lineField.get entries⟩

/-- The form of a parse error. -/
def toValue (e : ParseError) : Value :=
  .object ([("kind", e.kind.toValue), ("message", .string e.message)]
    ++ optionalEntry "path" .string e.path? ++ optionalEntry "line" .ofNat e.line?)

end ParseError

end ForeignKey
