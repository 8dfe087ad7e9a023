import ForeignKey.Rule

/-!
# Rule sets

The configuration of a check: each binding attaches a rule to every value found at its field pattern.
Texts are kept as written, so that lint can see stray separators.
-/

namespace ForeignKey

/-- A rule and the pattern of the values that it is checked for. -/
structure Binding where
  field : String
  base : BaseType
  paths : ReferencePaths
  deriving DecidableEq

namespace Binding

/-- The pattern of the checked values. -/
def fieldPattern (b : Binding) : Pattern := Pattern.parse b.field

/-- The rule of the binding; none if it lists no patterns. -/
def rule? (b : Binding) : Option Rule := Rule.ofPaths? b.base b.paths

end Binding

/-- The bindings of a configuration, in order. -/
structure RuleSet where
  references : List Binding
  deriving DecidableEq

end ForeignKey
