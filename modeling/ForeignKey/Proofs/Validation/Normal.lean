import ForeignKey.Proofs.Lint
import ForeignKey.Proofs.Validation.Tasks

/-!
# A rule set behaves like its normal form

The tasks of a rule set in normal form are those of the rule set, each with another declaration to quote.
A task uses its declaration for its messages alone: it finds the same values and leaves the same context,
whatever it started from. So nothing but stray separators, of which lint alone speaks, tells the two apart.
-/

namespace ForeignKey

/-! ## Violations -/

/-- The failure with the declaration that it quotes in normal form. -/
def Failure.normalized : Failure → Failure
  | .missingContext base => .missingContext base
  | .notFound base value paths => .notFound base value paths.normalized

/-- Two violations that differ at most in the declaration that their messages quote, which the second
quotes in normal form. -/
structure Violation.Requoted (x y : Violation) : Prop where
  path : x.path = y.path
  kind : x.kind = y.kind
  code : x.code = y.code
  value : x.value? = y.value?
  message : ∃ f : Failure, x.message = f.message ∧ y.message = f.normalized.message

theorem Violation.requoted_ofFailure (location : Location) (f : Failure) :
    (ofFailure location f).Requoted (ofFailure location f.normalized) := by
  refine ⟨rfl, ?_, ?_, ?_, f, rfl, rfl⟩ <;> cases f <;> rfl

/-! ## Tasks -/

/-- The task with its texts in normal form. -/
def Task.normalized : Task → Task
  | .skip field => .skip (Pattern.normalText field)
  | .check rule found => .check rule.normalized found

theorem Binding.tasks_normalized (b : Binding) (target : Value) :
    b.normalized.tasks target = (b.tasks target).map Task.normalized := by
  rw [tasks, tasks, rule?_normalized, fieldPattern_normalized]
  cases b.rule? with
  | none => rfl
  | some rule =>
    show (b.fieldPattern.locate target).map (Task.check rule.normalized) = _
    rw [List.map_map]
    rfl

theorem RuleSet.tasks_normalized (rules : RuleSet) (target : Value) :
    rules.normalized.tasks target = (rules.tasks target).map Task.normalized := by
  rw [tasks, tasks, List.map_flatMap]
  show (rules.references.map Binding.normalized).flatMap _ = _
  rw [List.flatMap_map]
  simp only [Binding.tasks_normalized]

/-- Two parts of a validation that differ at most in the declarations that they quote. -/
structure Progress.Requoted (p q : Progress) : Prop where
  context : q.context? = p.context?
  errors : List.Forall₂ Violation.Requoted p.errors q.errors

theorem Rule.verdict?_normalized (rule : Rule) (value : Value) (found : Bool) :
    rule.normalized.verdict? value found = (rule.verdict? value found).map Failure.normalized := by
  cases found <;> rfl

theorem Rule.failure?_check_normalized (rule : Rule) (value : Value) (context? : Option Context) :
    (rule.normalized.check value context?).failure? =
      (rule.check value context?).failure?.map Failure.normalized := by
  cases context? with
  | none => rfl
  | some context =>
    -- both look the value up among the same candidates
    exact rule.verdict?_normalized value
      ((context.cache.resolve rule.patterns context.document).candidates.contains value)

theorem Rule.state?_check_normalized (rule : Rule) (value : Value) (context? : Option Context) :
    (rule.normalized.check value context?).state? = (rule.check value context?).state? := by
  cases context? <;> rfl

theorem Task.perform_normalized (task : Task) (context? : Option Context) :
    (task.perform context?).Requoted (task.normalized.perform context?) := by
  cases task with
  | skip field => exact ⟨rfl, .nil⟩
  | check rule found =>
    refine ⟨rule.state?_check_normalized found.2 context?, ?_⟩
    show List.Forall₂ Violation.Requoted
      ((rule.check found.2 context?).failure?.map (Violation.ofFailure found.1)).toList
      ((rule.normalized.check found.2 context?).failure?.map (Violation.ofFailure found.1)).toList
    rw [rule.failure?_check_normalized]
    cases (rule.check found.2 context?).failure? with
    | none => exact .nil
    | some f => exact .cons (Violation.requoted_ofFailure found.1 f) .nil

theorem Task.performAll_normalized (tasks : List Task) (context? : Option Context) :
    (performAll tasks context?).Requoted (performAll (tasks.map Task.normalized) context?) := by
  induction tasks generalizing context? with
  | nil => exact ⟨rfl, .nil⟩
  | cons task rest ih =>
    have hfirst := task.perform_normalized context?
    -- the first task leaves both with the same context, so the others start from the same again
    have hrest := ih (task.perform context?).context?
    rw [List.map_cons, performAll, performAll]
    show Progress.Requoted _ ((task.normalized.perform context?).followedBy
      (performAll (rest.map Task.normalized) (task.normalized.perform context?).context?))
    rw [hfirst.context]
    exact ⟨hrest.context, List.rel_append hfirst.errors hrest.errors⟩

/-! ## Rule sets -/

theorem RuleSet.validate_normalized (rules : RuleSet) (target : Value) (context? : Option Context) :
    (rules.normalized.validate target context?).context? =
        (rules.validate target context?).context? ∧
      List.Forall₂ Violation.Requoted (rules.validate target context?).report.errors
        (rules.normalized.validate target context?).report.errors := by
  have htasks := Task.performAll_normalized (rules.tasks target) context?
  rw [validate_eq_performAll, validate_eq_performAll, tasks_normalized]
  exact ⟨htasks.context, htasks.errors⟩

/-- Putting a rule set into normal form twice is doing it once. In any state of a run, and without a
context, validation reports the same violations of the same values at the same places in the same order,
but for the declaration that their messages quote, and leaves the same context with the same cache. Lint
gives the same warnings, those about stray separators left out. -/
theorem RuleSet.normalizing_changes_words_only (rules : RuleSet) :
    rules.normalized.normalized = rules.normalized ∧
    (∀ (target : Value) (context? : Option Context),
      List.Forall₂ Violation.Requoted (rules.validate target context?).report.errors
          (rules.normalized.validate target context?).report.errors ∧
        (rules.normalized.validate target context?).context? =
          (rules.validate target context?).context?) ∧
    rules.normalized.lint = rules.lint.filter fun d => d.code ≠ "W-002" := by
  refine ⟨rules.normalized_normalized, fun target context? => ?_, rules.lint_normalized⟩
  obtain ⟨hcontext, herrors⟩ := rules.validate_normalized target context?
  exact ⟨herrors, hcontext⟩

/-- A car of a make that is not known, whose binding is written with stray dots: its violation quotes the
declaration with the dots, and in normal form without them. -/
theorem RuleSet.normalizing_requotes_makes :
    let rules : RuleSet := ⟨[⟨"cars..[]", .string, .single ".makes.[]"⟩]⟩
    let target : Value := .object [("cars", .array [.string "nissan", .string "ford"])]
    let context := Context.over (.object [("makes", .array [.string "nissan"])])
    let ford (raw : String) : Violation :=
      .ofFailure ⟨[.key "cars", .index 1]⟩ (.notFound .string (.string "ford") (.single raw))
    (rules.validate target (some context)).report.errors = [ford ".makes.[]"] ∧
      (rules.normalized.validate target (some context)).report.errors = [ford "makes.[]"] ∧
      (ford ".makes.[]").Requoted (ford "makes.[]") ∧
      (ford ".makes.[]").message ≠ (ford "makes.[]").message ∧
      rules.lint.map (·.code) = ["W-002", "W-002"] ∧ rules.normalized.lint = [] := by
  intro rules target context ford
  have herrors : (rules.validate target (some context)).report.errors = [ford ".makes.[]"] := by
    rw [errors_validate_over]
    rfl
  have hnormal : (rules.normalized.validate target (some context)).report.errors =
      [ford "makes.[]"] := by
    rw [errors_validate_over]
    rfl
  obtain ⟨-, hvalidate, hlint⟩ := normalizing_changes_words_only rules
  have hrequoted := (hvalidate target (some context)).1
  rw [herrors, hnormal, List.forall₂_cons] at hrequoted
  refine ⟨herrors, hnormal, hrequoted.1, by decide, by decide, ?_⟩
  rw [hlint]
  rfl

end ForeignKey
