import ForeignKey.Record
import ForeignKey.RuleSet

/-!
# The serialized form of rule sets

A rule set is an object with the list `references`; a binding is an object with `field`, `fk` and an
optional `type`. Both refuse other fields. Reference paths are a text or a non-empty list of texts and
keep their form. All texts are taken verbatim.
-/

namespace ForeignKey

namespace BaseType

/-- The base types by name. -/
def choices : List (String × BaseType) := [("string", .string), ("number", .number)]

/-- Reads a base type. -/
def ofValue : Value → Reading BaseType := readChoice choices

/-- The form of a base type. -/
def toValue (b : BaseType) : Value := .string b.text

end BaseType

namespace Pattern

/-- Reads a pattern from its text. -/
def ofValue (v : Value) : Reading Pattern := (readText v).map parse

/-- The form of a pattern. -/
def toValue (p : Pattern) : Value := .string p.text

end Pattern

namespace ReferencePaths

/-- Reads an entry of a list of paths. -/
def readEntry : Value → Reading String
  | .string raw => .ok raw
  | v => .error (.pathNotText v)

/-- Reads reference paths. -/
def ofValue : Value → Reading ReferencePaths
  | .string raw => .ok (.single raw)
  | .array [] => .error .noPaths
  | .array items => (items.mapM readEntry).map .alternatives
  | v => .error (.notPaths v)

/-- The form of reference paths. -/
def toValue : ReferencePaths → Value
  | .single raw => .string raw
  | .alternatives raws => .array (raws.map .string)

end ReferencePaths

namespace Binding

/-- The pattern of the checked values. -/
def fieldField : Field String := .required "field" readText

/-- The base type, `string` if it is left out. -/
def baseField : Field BaseType := .defaulted "type" BaseType.ofValue .string

/-- The reference paths. -/
def pathsField : Field ReferencePaths := .required "fk" ReferencePaths.ofValue

/-- The shape of a binding. -/
def shape : RecordShape := ⟨"Binding", true, [fieldField.shape, baseField.shape, pathsField.shape]⟩

/-- Reads a binding. -/
def ofValue (v : Value) : Reading Binding := do
  let entries ← shape.entries v
  return ⟨← fieldField.get entries, ← baseField.get entries, ← pathsField.get entries⟩

/-- The form of a binding. -/
def toValue (b : Binding) : Value :=
  .object [("field", .string b.field), ("type", b.base.toValue), ("fk", b.paths.toValue)]

end Binding

namespace RuleSet

/-- The bindings, none if they are left out. -/
def referencesField : Field (List Binding) := .defaulted "references" (readList Binding.ofValue) []

/-- The shape of a rule set. -/
def shape : RecordShape := ⟨"RuleSet", true, [referencesField.shape]⟩

/-- Reads a rule set. -/
def ofValue (v : Value) : Reading RuleSet := do
  let entries ← shape.entries v
  return ⟨← referencesField.get entries⟩

/-- The form of a rule set. -/
def toValue (rules : RuleSet) : Value :=
  .object [("references", .array (rules.references.map Binding.toValue))]

end RuleSet

end ForeignKey
