import ForeignKey.Pattern.Union

/-!
# Foreign-key rules

A rule says that a value must also occur at a place described by one of its patterns. The schema
author declares the patterns as one text or as a list of alternatives; the declaration is kept as
written, for the messages, beside the patterns read from it.
-/

namespace ForeignKey

/-- The schema type that a rule is attached to. It is the first part of error codes and nothing
else: values are neither converted nor checked against it. -/
inductive BaseType where
  | string
  | number
  deriving DecidableEq

/-- The name of a base type. -/
def BaseType.text : BaseType → String
  | .string => "string"
  | .number => "number"

/-- The reference paths of a rule as they were declared. -/
inductive ReferencePaths where
  | single (raw : String)
  | alternatives (raws : List String)
  deriving DecidableEq

namespace ReferencePaths

/-- The raw texts of the patterns. -/
def raws : ReferencePaths → List String
  | .single raw => [raw]
  | .alternatives raws => raws

/-- The patterns of the declaration; a list without alternatives has none. -/
def union? (paths : ReferencePaths) : Option PatternUnion :=
  PatternUnion.ofList? (paths.raws.map Pattern.parse)

/-- The declaration in a message. -/
def text : ReferencePaths → String
  | .single raw => raw
  | .alternatives raws => String.intercalate ", " raws

theorem union?_eq_none_iff {paths : ReferencePaths} : paths.union? = none ↔ paths.raws = [] := by
  simp [union?, PatternUnion.ofList?_eq_none_iff]

end ReferencePaths

/-- A declaration with the patterns that it stands for. -/
structure Rule where
  base : BaseType
  paths : ReferencePaths
  patterns : PatternUnion
  declared : paths.union? = some patterns
  deriving DecidableEq

/-- The rule of a declaration, which needs at least one pattern. -/
def Rule.ofPaths? (base : BaseType) (paths : ReferencePaths) : Option Rule :=
  match h : paths.union? with
  | some patterns => some ⟨base, paths, patterns, h⟩
  | none => none

end ForeignKey
