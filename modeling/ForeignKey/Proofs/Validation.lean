import ForeignKey.Proofs.Check
import ForeignKey.Validation

/-!
# Validation without a cache

The reference is written without contexts and caches: for every located value of every binding it searches
the lookup document pattern by pattern. Main statement: in every context that a run over the document can
reach, whatever was checked or validated before and with whatever outcome, validation reports the
violations of the reference, in its order.
-/

namespace ForeignKey

/-! ## The rule of a binding -/

namespace Binding

/-- The patterns that a binding's reference paths stand for. -/
def patterns (b : Binding) : List Pattern := b.paths.raws.map Pattern.parse

theorem rule?_eq_none_iff {b : Binding} : b.rule? = none ↔ b.paths.raws = [] := by
  rw [rule?, Rule.ofPaths?, ← ReferencePaths.union?_eq_none_iff]
  split <;> simp_all

theorem raws_ne_nil_of_rule? {b : Binding} {rule : Rule} (h : b.rule? = some rule) :
    b.paths.raws ≠ [] := by
  rw [Ne, ← rule?_eq_none_iff, h]
  simp

theorem of_rule?_eq_some {b : Binding} {rule : Rule} (h : b.rule? = some rule) :
    rule.base = b.base ∧ rule.paths = b.paths ∧ rule.patterns.patterns = b.patterns := by
  have hrule : rule.base = b.base ∧ rule.paths = b.paths := by
    rw [rule?, Rule.ofPaths?] at h
    split at h
    · cases h
      exact ⟨rfl, rfl⟩
    · cases h
  refine ⟨hrule.1, hrule.2, ?_⟩
  rw [patterns, ← hrule.2]
  exact PatternUnion.patterns_of_ofList? rule.declared

end Binding

/-! ## Checked values -/

theorem Rule.checked_validateAll (rule : Rule) (found : List (Location × Value))
    (context? : Option Context) : (rule.validateAll found context?).checked = found.length := by
  induction found generalizing context? with
  | nil => rfl
  | cons r rest ih =>
    show 1 + (rule.validateAll rest _).checked = _
    rw [ih, Nat.add_comm, List.length_cons]

/-- A binding with reference paths checks every value that its field locates. -/
theorem Binding.checked_validate {b : Binding} (h : b.paths.raws ≠ []) (target : Value)
    (context? : Option Context) :
    (b.validate target context?).checked = (b.fieldPattern.locate target).length := by
  rw [validate]
  split
  · next hrule => exact absurd (rule?_eq_none_iff.mp hrule) h
  · next rule _ => exact rule.checked_validateAll _ context?

/-! ## The reference -/

namespace Binding

variable (b : Binding) (target document : Value)

/-- The violation of a located value, unless some pattern of the binding reaches it. -/
def violation? (found : Location × Value) : Option Violation :=
  if b.patterns.any fun p => p.occurs found.2 document then none
  else some {
    code := b.base.text ++ ".fk_not_found"
    kind := .notFound
    path := found.1.text
    message := "\"" ++ found.2.display ++ "\" could not be found as a reference to \""
      ++ b.paths.text ++ "\""
    value? := some found.2 }

/-- The violations of a binding, in the order of the locations. A binding without patterns has none. -/
def violations : List Violation :=
  if b.paths.raws = [] then []
  else (b.fieldPattern.locate target).filterMap (b.violation? document)

end Binding

/-- The violations of a target, in the order of the bindings. -/
def RuleSet.violations (rules : RuleSet) (target document : Value) : List Violation :=
  rules.references.flatMap fun b => b.violations target document

/-! ## Parts of a validation -/

/-- A part of a validation over `document` reports `errors` and leaves a sound context. -/
structure Progress.Reports (p : Progress) (document : Value) (errors : List Violation) : Prop where
  errors_eq : p.errors = errors
  context : ∃ next, p.context? = some next ∧ next.Sound document

/-- Parts are put together where the context of one is handed to the next. -/
theorem Progress.Reports.followedBy {first : Progress} {second : Option Context → Progress}
    {document : Value} {es es' : List Violation} (hfirst : first.Reports document es)
    (hsecond : ∀ next : Context, next.Sound document → (second (some next)).Reports document es') :
    (first.followedBy (second first.context?)).Reports document (es ++ es') := by
  obtain ⟨next, hnext, hsound⟩ := hfirst.context
  have h := hsecond next hsound
  rw [hnext]
  refine ⟨?_, h.context⟩
  show first.errors ++ (second (some next)).errors = es ++ es'
  rw [hfirst.errors_eq, h.errors_eq]

variable {context : Context} {document : Value}

theorem Progress.reports_nothing (h : context.Sound document) (events : List Event) :
    Progress.Reports ⟨some context, [], 0, events⟩ document [] :=
  ⟨rfl, context, rfl, h⟩

/-- One located value: a violation of the reference, or none. -/
theorem Rule.validateAt_reports {b : Binding} {rule : Rule} (hrule : b.rule? = some rule)
    (found : Location × Value) (h : context.Sound document) :
    (rule.validateAt found.1 found.2 (some context)).Reports document
      (b.violation? document found).toList := by
  obtain ⟨hbase, hpaths, hpatterns⟩ := Binding.of_rule?_eq_some hrule
  refine ⟨?_, exists_state?_check h rule found.2⟩
  show (Option.map (Violation.ofFailure found.1)
    (rule.check found.2 (some context)).failure?).toList = _
  rw [failure?_check h, verdict?, Binding.violation?, PatternUnion.occurs, hpatterns, hbase, hpaths]
  split
  · rfl
  · -- the reference spells the code out, which a failure puts together
    cases b.base <;> rfl

/-- All located values of a binding, the context going from one to the next. -/
theorem Rule.validateAll_reports {b : Binding} {rule : Rule} (hrule : b.rule? = some rule)
    (found : List (Location × Value)) (h : context.Sound document) :
    (rule.validateAll found (some context)).Reports document
      (found.filterMap (b.violation? document)) := by
  induction found generalizing context with
  | nil => exact Progress.reports_nothing h []
  | cons r rest ih =>
    have hsplit : (r :: rest).filterMap (b.violation? document) =
        (b.violation? document r).toList ++ rest.filterMap (b.violation? document) := by
      rw [List.filterMap_cons]
      cases b.violation? document r <;> rfl
    rw [hsplit]
    exact (validateAt_reports hrule r h).followedBy fun next hnext => ih hnext

theorem Binding.validate_reports (b : Binding) (target : Value) (h : context.Sound document) :
    (b.validate target (some context)).Reports document (b.violations target document) := by
  rw [validate, violations]
  split
  · next hnone =>
    rw [if_pos (rule?_eq_none_iff.mp hnone)]
    exact Progress.reports_nothing h _
  · next rule hrule =>
    rw [if_neg (raws_ne_nil_of_rule? hrule)]
    exact Rule.validateAll_reports hrule _ h

theorem Binding.validateAll_reports (bindings : List Binding) (target : Value)
    (h : context.Sound document) :
    (Binding.validateAll target bindings (some context)).Reports document
      (bindings.flatMap fun b => b.violations target document) := by
  induction bindings generalizing context with
  | nil => exact Progress.reports_nothing h []
  | cons b rest ih =>
    rw [List.flatMap_cons]
    exact (b.validate_reports target h).followedBy fun next hnext => ih hnext

/-! ## Reachable contexts -/

namespace Context

/-- What a host does with the context of a run. -/
inductive Operation where
  | check (rule : Rule) (value : Value)
  | validate (rules : RuleSet) (target : Value)

/-- The context that an operation leaves. -/
def perform? (context : Context) : Operation → Option Context
  | .check rule value => (rule.check value (some context)).state?
  | .validate rules target => (rules.validate target (some context)).context?

/-- The contexts that a run over `document` goes through, from a fresh one on. -/
inductive Reachable (document : Value) : Context → Prop where
  | fresh : Reachable document (.over document)
  | step {context next : Context} (operation : Operation) (h : Reachable document context)
      (hstep : context.perform? operation = some next) : Reachable document next

/-- Every operation keeps a context sound. -/
theorem Sound.perform? (h : context.Sound document) (operation : Operation) :
    ∃ next, context.perform? operation = some next ∧ next.Sound document := by
  cases operation with
  | check rule value => exact Rule.exists_state?_check h rule value
  | validate rules target => exact (Binding.validateAll_reports rules.references target h).context

theorem Reachable.sound (h : Reachable document context) : context.Sound document := by
  induction h with
  | fresh => exact sound_over document
  | step operation _ hstep ih =>
    obtain ⟨next, hnext, hsound⟩ := ih.perform? operation
    rw [hstep] at hnext
    cases hnext
    exact hsound

end Context

namespace RuleSet

theorem errors_validate_over (rules : RuleSet) (target document : Value) :
    (rules.validate target (some (.over document))).report.errors =
      rules.violations target document :=
  (Binding.validateAll_reports rules.references target (Context.sound_over document)).errors_eq

/-- In any context that a run over `document` reaches, validation reports what a search of the document
finds violated. -/
theorem validate_reports_violations (h : context.Reachable document) (rules : RuleSet)
    (target : Value) :
    (rules.validate target (some context)).report.errors = rules.violations target document :=
  (Binding.validateAll_reports rules.references target h.sound).errors_eq

/-- A validation that follows a failed check: the candidates come from the cache, and the one car whose
make is missing is reported, and not the other. -/
theorem violations_after_failed_check :
    let document : Value := .object [("makes", .array [.string "nissan", .string "toyota"])]
    let target : Value := .object [("cars", .array [.string "toyota", .string "ford"])]
    let rules : RuleSet := ⟨[⟨"cars.[]", .string, .alternatives ["makes.[]"]⟩]⟩
    ∃ context, context.Reachable document ∧ context.cache.traversals = 1 ∧
      (rules.validate target (some context)).report.errors.map (fun e => (e.path, e.code)) =
        [("cars[1]", "string.fk_not_found")] := by
  intro document target rules
  let union : PatternUnion := .singleton (.parse "makes.[]")
  let rule : Rule := ⟨.string, .alternatives ["makes.[]"], union, by decide⟩
  have hreach : Context.Reachable document
      ⟨document, (CandidateCache.empty.resolve union document).cache⟩ :=
    .step (.check rule (.string "ford")) .fresh rfl
  refine ⟨_, hreach, rfl, ?_⟩
  rw [validate_reports_violations hreach rules target]
  rfl

end RuleSet

end ForeignKey
