import Mathlib.Algebra.GroupWithZero.Nat
import ForeignKey.Proofs.Clients
import ForeignKey.Proofs.Validation

/-!
# A validation as a list of tasks

A validation goes through bindings and, within each, through located values. Written down beforehand this
is one list of tasks: a binding to skip, or a located value to check. Doing the tasks one after the other
is the validation, so what holds of every task holds of it by one induction. In a context the tasks are
turns, each of which finds the context that the one before has left.
-/

namespace ForeignKey

/-- One piece of the work of a validation. -/
inductive Task where
  /-- A binding without patterns, which is passed over. -/
  | skip (field : String)
  /-- A located value, which is checked. -/
  | check (rule : Rule) (found : Location × Value)

namespace Task

/-- Does a task. -/
def perform : Task → Option Context → Progress
  | .skip field, context? => ⟨context?, [], 0, [.bindingSkipped field]⟩
  | .check rule found, context? => rule.validateAt found.1 found.2 context?

/-- Does tasks one after the other. -/
def performAll : List Task → Option Context → Progress
  | [], context? => ⟨context?, [], 0, []⟩
  | task :: rest, context? =>
    let first := task.perform context?
    first.followedBy (performAll rest first.context?)

end Task

/-- The tasks of a binding, in the order of the locations. -/
def Binding.tasks (b : Binding) (target : Value) : List Task :=
  match b.rule? with
  | none => [.skip b.field]
  | some rule => (b.fieldPattern.locate target).map (.check rule)

/-- The tasks of a validation, in the order of the bindings. -/
def RuleSet.tasks (rules : RuleSet) (target : Value) : List Task :=
  rules.references.flatMap fun b => b.tasks target

/-! ## The work of a validation -/

namespace Progress

theorem nothing_followedBy (context? : Option Context) (p : Progress) :
    followedBy ⟨context?, [], 0, []⟩ p = p := by
  simp [followedBy]

theorem followedBy_assoc (p q r : Progress) :
    (p.followedBy q).followedBy r = p.followedBy (q.followedBy r) := by
  simp [followedBy, Nat.add_assoc]

end Progress

namespace Task

theorem performAll_append (tasks later : List Task) (context? : Option Context) :
    performAll (tasks ++ later) context? =
      (performAll tasks context?).followedBy
        (performAll later (performAll tasks context?).context?) := by
  induction tasks generalizing context? with
  | nil => exact (Progress.nothing_followedBy context? _).symm
  | cons task rest ih =>
    rw [List.cons_append, performAll, ih, performAll, Progress.followedBy_assoc]
    rfl

end Task

theorem Rule.validateAll_eq_performAll (rule : Rule) (found : List (Location × Value))
    (context? : Option Context) :
    rule.validateAll found context? = Task.performAll (found.map (.check rule)) context? := by
  induction found generalizing context? with
  | nil => rfl
  | cons r rest ih =>
    rw [validateAll, ih]
    rfl

theorem Binding.validate_eq_performAll (b : Binding) (target : Value) (context? : Option Context) :
    b.validate target context? = Task.performAll (b.tasks target) context? := by
  rw [validate, tasks]
  cases b.rule? with
  | none => rfl
  | some rule => exact rule.validateAll_eq_performAll _ context?

theorem Binding.validateAll_eq_performAll (target : Value) (bindings : List Binding)
    (context? : Option Context) :
    Binding.validateAll target bindings context? =
      Task.performAll (bindings.flatMap fun b => b.tasks target) context? := by
  induction bindings generalizing context? with
  | nil => rfl
  | cons b rest ih =>
    rw [validateAll, List.flatMap_cons, Task.performAll_append, ← b.validate_eq_performAll, ih]

/-- A validation is its tasks, and a summary. -/
theorem RuleSet.validate_eq_performAll (rules : RuleSet) (target : Value)
    (context? : Option Context) :
    rules.validate target context? =
      let p := Task.performAll (rules.tasks target) context?
      ⟨⟨p.errors, []⟩, p.context?, p.events ++ [rules.summary p]⟩ := by
  rw [validate, Binding.validateAll_eq_performAll]
  rfl

/-! ## Tasks in a context -/

/-- Does a task in a context, and gives the context that it leaves. -/
def Context.act (context : Context) (task : Task) : Progress × Context :=
  let p := task.perform (some context)
  (p, p.context?.getD context)

namespace Task

theorem context?_perform_some (task : Task) (context : Context) :
    (task.perform (some context)).context? = some (context.act task).2 := by
  cases task <;> rfl

/-- In a context, what tasks do is what their turns do. -/
theorem performAll_some (tasks : List Task) (context : Context) :
    performAll tasks (some context) =
      let ts := turns Context.act context tasks
      ⟨some (stateAfter Context.act context tasks), ts.flatMap (·.answer.errors),
        (ts.map (·.answer.checked)).sum, ts.flatMap (·.answer.events)⟩ := by
  induction tasks generalizing context with
  | nil => rfl
  | cons task rest ih =>
    rw [performAll]
    show (task.perform (some context)).followedBy
      (performAll rest (task.perform (some context)).context?) = _
    rw [context?_perform_some, ih]
    rfl

end Task

/-- A validation in a context leaves the one that its tasks leave. -/
theorem RuleSet.context?_validate_some (rules : RuleSet) (target : Value) (context : Context) :
    (rules.validate target (some context)).context? =
      some (stateAfter Context.act context (rules.tasks target)) := by
  rw [validate_eq_performAll, Task.performAll_some]

end ForeignKey
