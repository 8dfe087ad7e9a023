import ForeignKey.Check
import ForeignKey.Report
import ForeignKey.RuleSet

/-!
# Validation

Every value that a binding's field pattern locates in the target is checked by the binding's rule, in
the order of the bindings and within a binding in the order of the traversal. All violations are
reported, not just the first. A binding without patterns is skipped with an event, and a field that is
absent from the target has no values to check.
-/

namespace ForeignKey

/-- What a part of a validation has done, and the context to go on with. -/
structure Progress where
  context? : Option Context
  errors : List Violation
  checked : Nat
  events : List Event

/-- The work of `first`, followed by that of `second`, which started from the context that `first`
left. -/
def Progress.followedBy (first second : Progress) : Progress :=
  ⟨second.context?, first.errors ++ second.errors, first.checked + second.checked,
    first.events ++ second.events⟩

/-- Checks one located value. -/
def Rule.validateAt (rule : Rule) (location : Location) (value : Value) (context? : Option Context) :
    Progress :=
  let c := rule.check value context?
  ⟨c.state?, (c.failure?.map (Violation.ofFailure location)).toList, 1, c.events⟩

/-- Checks located values one after the other. -/
def Rule.validateAll (rule : Rule) : List (Location × Value) → Option Context → Progress
  | [], context? => ⟨context?, [], 0, []⟩
  | (location, value) :: rest, context? =>
    let first := rule.validateAt location value context?
    first.followedBy (rule.validateAll rest first.context?)

/-- Checks what a binding locates in the target. -/
def Binding.validate (b : Binding) (target : Value) (context? : Option Context) : Progress :=
  match b.rule? with
  | none => ⟨context?, [], 0, [.bindingSkipped b.field]⟩
  | some rule => rule.validateAll (b.fieldPattern.locate target) context?

/-- Goes through bindings one after the other. -/
def Binding.validateAll (target : Value) : List Binding → Option Context → Progress
  | [], context? => ⟨context?, [], 0, []⟩
  | b :: rest, context? =>
    let first := b.validate target context?
    first.followedBy (Binding.validateAll target rest first.context?)

/-- The outcome of a validation with the context that it leaves and its events. -/
structure Validation where
  report : Report
  context? : Option Context
  events : List Event

namespace RuleSet

/-- The event that sums a validation up. -/
def summary (rules : RuleSet) (p : Progress) : Event :=
  .finished rules.references.length p.checked p.errors.length
    (p.context?.map (·.cache.traversals))

/-- Validates a target, looking references up in the document of the context. Without a context
every located value is a violation. -/
def validate (rules : RuleSet) (target : Value) (context? : Option Context) : Validation :=
  let p := Binding.validateAll target rules.references context?
  ⟨⟨p.errors, []⟩, p.context?, p.events ++ [rules.summary p]⟩

/-- Validates a document with itself as the lookup document. -/
def validateSelf (rules : RuleSet) (document : Value) : Validation :=
  rules.validate document (some (.over document))

end RuleSet

end ForeignKey
