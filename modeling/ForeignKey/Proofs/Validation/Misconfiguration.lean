import ForeignKey.Proofs.Validation.Events

/-!
# Validation without a context

A validation that is not told where to look for references does not pass over anything: it reports a
failure of the configuration for every value that it would have checked. Main statement: it reports them
all, in the order of the checks, and nothing else makes a result misconfigured. A validation with whatever
context reports violations of some of these values, in the same order.
-/

namespace ForeignKey

/-! ## What a validation without a context reports -/

/-- The violation of a located value when there is no document to look in. -/
def Binding.unsupplied (b : Binding) (found : Location × Value) : Violation where
  code := b.base.text ++ ".no_context"
  kind := .missingContext
  path := found.1.text
  message := "the document to look for references in must be supplied in the validation context"
  value? := none

/-- The base type that the code of a violation begins with, up to the dot. -/
def Violation.baseText (x : Violation) : String := String.ofList (x.code.toList.takeWhile (· ≠ '.'))

/-- Which value a violation is about, and for which base type. -/
def Violation.mark (x : Violation) : String × String := (x.path, x.baseText)

theorem Violation.mark_ofFailure (location : Location) (f : Failure) :
    (Violation.ofFailure location f).mark = (location.text, f.base.text) := by
  have hcode (base : BaseType) (kind : FailureKind) :
      String.ofList ((base.text ++ "." ++ kind.text).toList.takeWhile (· ≠ '.')) = base.text := by
    cases base <;> cases kind <;> decide
  rw [mark, baseText]
  exact congrArg (location.text, ·) (hcode f.base f.kind)

theorem Binding.ofFailure_missingContext (b : Binding) (found : Location × Value) :
    Violation.ofFailure found.1 (.missingContext b.base) = b.unsupplied found := by
  rw [unsupplied]
  cases b.base <;> rfl

theorem Binding.any_kind_map_unsupplied (b : Binding) (found : List (Location × Value)) :
    (found.map b.unsupplied).any (·.kind == .missingContext) = !found.isEmpty := by
  cases found <;> rfl

theorem Binding.boundValues_ne_nil_iff {b : Binding} {target : Value} :
    b.boundValues target ≠ [] ↔ b.paths.raws ≠ [] ∧ b.fieldPattern.locate target ≠ [] := by
  rw [boundValues]
  split <;> simp_all

/-- Without a context every located value is reported, binding by binding. -/
theorem RuleSet.errors_validate_none (rules : RuleSet) (target : Value) :
    (rules.validate target none).report.errors =
      rules.references.flatMap fun b => (b.boundValues target).map b.unsupplied := by
  have hchecks (b : Binding) := b.map_checks target fun base found =>
    Violation.ofFailure found.1 (.missingContext base)
  rw [validate_eq_performAll, Task.performAll_none, tasks, List.filterMap_flatMap]
  show List.map _ _ = _
  rw [List.map_flatMap]
  simp only [hchecks, Binding.ofFailure_missingContext]

/-! ## One task -/

namespace Task

variable {task : Task}

/-- With a context only what is not found is reported. -/
theorem kind_eq_of_mem_errors_perform {context : Context} {x : Violation}
    (hx : x ∈ (task.perform (some context)).errors) : x.kind = .notFound := by
  cases task with
  | skip field => cases hx
  | check rule found =>
    rw [perform, Rule.validateAt, Option.mem_toList, Option.map_eq_some_iff] at hx
    obtain ⟨f, hf, rfl⟩ := hx
    rw [Rule.check, Rule.verdict?, Option.ite_none_left_eq_some] at hf
    obtain ⟨-, hf⟩ := hf
    cases hf
    rfl

/-- A context takes violations away and adds none. -/
theorem marks_perform (task : Task) (context? : Option Context) :
    ((task.perform context?).errors.map Violation.mark).Sublist
      ((task.perform none).errors.map Violation.mark) := by
  cases task with
  | skip field => exact List.Sublist.refl _
  | check rule found =>
    cases context? with
    | none => exact List.Sublist.refl _
    | some context =>
      rw [perform, perform, Rule.validateAt, Rule.validateAt, Rule.check, Rule.check, Rule.verdict?]
      split
      · exact List.nil_sublist _
      · show [Violation.mark _].Sublist [Violation.mark _]
        rw [Violation.mark_ofFailure, Violation.mark_ofFailure]
        exact List.Sublist.refl _

theorem marks_performAll (tasks : List Task) (context? : Option Context) :
    ((performAll tasks context?).errors.map Violation.mark).Sublist
      ((performAll tasks none).errors.map Violation.mark) := by
  induction tasks generalizing context? with
  | nil => exact List.Sublist.refl _
  | cons task rest ih =>
    have hnone : (task.perform none).context? = none := by
      cases task <;> rfl
    rw [performAll, performAll, Progress.followedBy, Progress.followedBy, List.map_append,
      List.map_append, hnone]
    exact (marks_perform task context?).append (ih _)

end Task

/-! ## Whole validations -/

namespace RuleSet

variable {rules : RuleSet} {target : Value}

theorem kind_eq_of_mem_errors_validate {context : Context} {x : Violation}
    (hx : x ∈ (rules.validate target (some context)).report.errors) : x.kind = .notFound := by
  rw [validate_eq_performAll, Task.performAll_some] at hx
  obtain ⟨t, ht, hx⟩ := List.mem_flatMap.mp hx
  refine forall_mem_turns (motive := fun t => ∀ x ∈ t.answer.errors, x.kind = .notFound)
    (fun context task x hx => ?_) context (rules.tasks target) t ht x hx
  exact Task.kind_eq_of_mem_errors_perform hx

theorem isMisconfigured_validate_some (context : Context) :
    (rules.validate target (some context)).report.isMisconfigured = false := by
  rw [Report.isMisconfigured, List.any_eq_false]
  intro x hx
  rw [kind_eq_of_mem_errors_validate hx]
  decide

/-- Bindings without patterns and fields that the target does not have are no failures. -/
theorem isMisconfigured_validate_none_iff :
    (rules.validate target none).report.isMisconfigured = true ↔
      ∃ b ∈ rules.references, b.paths.raws ≠ [] ∧ b.fieldPattern.locate target ≠ [] := by
  rw [Report.isMisconfigured, errors_validate_none, List.any_flatMap, List.any_eq_true]
  simp only [Binding.any_kind_map_unsupplied, Bool.not_eq_true', List.isEmpty_eq_false_iff,
    Binding.boundValues_ne_nil_iff]

/-- Without a context a validation reports exactly one failure for every value that a binding with
patterns locates, in the order of the bindings and of the traversal. A result is misconfigured exactly
when it is of such a validation and there was such a value. With whatever context no violation is of that
kind, and the violations are about some of the same values, in the same order. -/
theorem validate_without_context (rules : RuleSet) (target : Value) :
    (rules.validate target none).report.errors =
      (rules.references.flatMap fun b =>
        if b.paths.raws = [] then [] else (b.fieldPattern.locate target).map b.unsupplied) ∧
    (∀ context? : Option Context,
      (rules.validate target context?).report.isMisconfigured = true ↔
        context? = none ∧
          ∃ b ∈ rules.references, b.paths.raws ≠ [] ∧ b.fieldPattern.locate target ≠ []) ∧
    (∀ context : Context,
      (∀ x ∈ (rules.validate target (some context)).report.errors, x.kind ≠ .missingContext) ∧
      ((rules.validate target (some context)).report.errors.map Violation.mark).Sublist
        ((rules.validate target none).report.errors.map Violation.mark)) := by
  refine ⟨?_, fun context? => ?_, fun context => ⟨fun x hx => ?_, ?_⟩⟩
  · rw [errors_validate_none]
    simp only [Binding.boundValues, apply_ite, List.map_nil]
  · cases context? with
    | none => simp only [isMisconfigured_validate_none_iff, true_and]
    | some context => simp [isMisconfigured_validate_some]
  · rw [kind_eq_of_mem_errors_validate hx]
    decide
  · rw [validate_eq_performAll, validate_eq_performAll]
    exact Task.marks_performAll (rules.tasks target) (some context)

/-- Two cars and a number, a field that is absent and a binding without patterns: without a context all
three values are reported, with one the car whose make is known is not. -/
theorem validate_cars_without_context :
    let document : Value := .object [("makes", .array [.string "nissan"])]
    let target : Value :=
      .object [("cars", .array [.string "nissan", .string "ford"]), ("seats", .ofNat 4)]
    let rules : RuleSet :=
      ⟨[⟨"cars.[]", .string, .single "makes.[]"⟩, ⟨"cars", .string, .alternatives []⟩,
        ⟨"planes.[]", .string, .single "makes.[]"⟩, ⟨"seats", .number, .single "sizes.[]"⟩]⟩
    let without := (rules.validate target none).report
    let within := (rules.validate target (some (.over document))).report
    without.errors.map Violation.mark =
        [("cars[0]", "string"), ("cars[1]", "string"), ("seats", "number")] ∧
      without.isMisconfigured = true ∧
      within.errors.map Violation.mark = [("cars[1]", "string"), ("seats", "number")] ∧
      (∃ x ∈ within.errors, x.path = "cars[1]" ∧ x.kind ≠ .missingContext) ∧
      (within.errors.map Violation.mark).Sublist (without.errors.map Violation.mark) := by
  intro document target rules without within
  obtain ⟨herrors, hmisconfigured, hwithin⟩ := validate_without_context rules target
  obtain ⟨hkind, hmarks⟩ := hwithin (.over document)
  have hfound : within.errors = rules.violations target document :=
    rules.errors_validate_over target document
  have hlocated : ∃ b ∈ rules.references, b.paths.raws ≠ [] ∧ b.fieldPattern.locate target ≠ [] :=
    ⟨⟨"seats", .number, .single "sizes.[]"⟩, .tail _ (.tail _ (.tail _ (.head _))), nofun, nofun⟩
  have hford : ∃ x ∈ within.errors, x.path = "cars[1]" := by
    rw [hfound]
    exact ⟨_, .head _, rfl⟩
  obtain ⟨x, hx, hpath⟩ := hford
  refine ⟨?_, (hmisconfigured none).mpr ⟨rfl, hlocated⟩, ?_, ⟨x, hx, hpath, hkind x hx⟩, hmarks⟩
  · rw [show without.errors = _ from herrors]
    rfl
  · rw [hfound]
    rfl

end RuleSet

end ForeignKey
