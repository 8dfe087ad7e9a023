import ForeignKey.Proofs.Validation.Tasks

/-!
# How often a run walks its document

Validations that share one context resolve, for every located value, the union of its binding's patterns.
All of them look in one document, so what they leave in the cache depends on nothing but the set of the
unions that they resolved: those of the bindings that have patterns and locate something. Each of these
was walked once, whatever the order of the validations and of their bindings.
-/

namespace ForeignKey

/-! ## Resolving in one document -/

namespace CandidateCache

/-- The calls that resolve unions, one after the other, in one document. -/
def resolves (document : Value) (us : List PatternUnion) : List Request :=
  us.map (.resolve · document)

variable (document : Value) (us : List PatternUnion)

theorem resolved_resolves : resolved (resolves document us) = us.map fun u => (u, document) := by
  rw [resolved, resolves, List.filterMap_map]
  exact congrFun List.filterMap_eq_map us

theorem map_fst_resolved_resolves : (resolved (resolves document us)).map Prod.fst = us := by
  rw [resolved_resolves, List.map_map]
  exact List.map_id us

theorem firstDocument?_resolves (u : PatternUnion) :
    firstDocument? (resolves document us) u = if u ∈ us then some document else none := by
  split
  · next hu =>
    rw [← map_fst_resolved_resolves document us, ← firstDocument?_isSome_iff] at hu
    obtain ⟨first, hfirst⟩ := Option.isSome_iff_exists.mp hu
    -- only one document was ever passed
    obtain ⟨entry, hentry, rfl⟩ := Option.map_eq_some_iff.mp hfirst
    have hmem := List.mem_of_find?_eq_some hentry
    rw [resolved_resolves] at hmem
    obtain ⟨_, -, rfl⟩ := List.mem_map.mp hmem
    exact hfirst
  · next hu =>
    rw [← map_fst_resolved_resolves document us, ← firstDocument?_isSome_iff] at hu
    exact Option.not_isSome_iff_eq_none.mp hu

/-- The entries are those of the unions that were resolved, whatever their order. -/
theorem get?_run_resolves (u : PatternUnion) :
    (run (resolves document us)).get? u =
      if u ∈ us then some (Candidates.ofList (u.collect document)) else none := by
  rw [(follows_run _).entries, firstDocument?_resolves]
  split <;> rfl

theorem size_run_resolves : (run (resolves document us)).size = us.toFinset.card := by
  rw [(follows_run _).size_eq_card, map_fst_resolved_resolves]

theorem traversals_run_resolves : (run (resolves document us)).traversals = us.toFinset.card := by
  rw [(follows_run _).traversals, size_run_resolves]

end CandidateCache

/-! ## The unions that tasks resolve -/

/-- The union that a task resolves. -/
def Task.union? : Task → Option PatternUnion
  | .skip _ => none
  | .check rule _ => some rule.patterns

theorem Context.act_snd (context : Context) (task : Task) :
    (context.act task).2 = { context with
      cache := (CandidateCache.resolves context.document task.union?.toList).foldl
        CandidateCache.after context.cache } := by
  cases task <;> rfl

/-- Tasks leave a context whose cache has resolved their unions in its document. -/
theorem Context.stateAfter_act (context : Context) (tasks : List Task) :
    stateAfter Context.act context tasks = { context with
      cache := (CandidateCache.resolves context.document (tasks.filterMap Task.union?)).foldl
        CandidateCache.after context.cache } := by
  induction tasks generalizing context with
  | nil => rfl
  | cons task rest ih =>
    show stateAfter Context.act (context.act task).2 rest = _
    rw [ih, act_snd]
    cases task <;> rfl

/-! ## The unions that bindings need -/

/-- The union that a binding needs for a target: none if it has no patterns or locates nothing. -/
def Binding.needed? (b : Binding) (target : Value) : Option PatternUnion :=
  if (b.fieldPattern.locate target).isEmpty then none else b.paths.union?

/-- The unions that validations need, in their order. -/
def neededUnions (runs : List (RuleSet × Value)) : List PatternUnion :=
  runs.flatMap fun run => run.1.references.filterMap fun b => b.needed? run.2

theorem mem_neededUnions_iff {runs : List (RuleSet × Value)} {u : PatternUnion} :
    u ∈ neededUnions runs ↔ ∃ run ∈ runs, ∃ b ∈ run.1.references, b.needed? run.2 = some u := by
  simp [neededUnions]

namespace Binding

variable {b : Binding} {target : Value}

theorem union?_of_rule? {rule : Rule} (h : b.rule? = some rule) :
    b.paths.union? = some rule.patterns := by
  rw [← (of_rule?_eq_some h).2.1]
  exact rule.declared

/-- The tasks of a binding resolve its union, once for each located value. -/
theorem mem_unions_tasks_iff {u : PatternUnion} :
    u ∈ (b.tasks target).filterMap Task.union? ↔ b.needed? target = some u := by
  rw [tasks, needed?]
  cases hrule : b.rule? with
  | none =>
    have hunion : b.paths.union? = none :=
      ReferencePaths.union?_eq_none_iff.mpr (rule?_eq_none_iff.mp hrule)
    simp [Task.union?, hunion]
  | some rule =>
    rw [union?_of_rule? hrule]
    cases b.fieldPattern.locate target with
    | nil => simp
    | cons r rest => simp [Task.union?, eq_comm]

/-- A binding without patterns, or without a value to check, does nothing to a context. -/
theorem validate_of_needless (h : b.paths.raws = [] ∨ b.fieldPattern.locate target = [])
    (context? : Option Context) :
    b.validate target context? =
      ⟨context?, [], 0, if b.paths.raws = [] then [.bindingSkipped b.field] else []⟩ := by
  rw [validate]
  cases hrule : b.rule? with
  | none => rw [if_pos (rule?_eq_none_iff.mp hrule)]
  | some rule =>
    have hne : b.paths.raws ≠ [] := raws_ne_nil_of_rule? hrule
    rw [if_neg hne, h.resolve_left hne]
    rfl

end Binding

/-! ## Validations that share a context -/

/-- The context that validations leave which are made one after the other. -/
def Context.afterValidations (context? : Option Context) (runs : List (RuleSet × Value)) :
    Option Context :=
  runs.foldl (fun context? run => (run.1.validate run.2 context?).context?) context?

theorem Context.afterValidations_some (context : Context) (runs : List (RuleSet × Value)) :
    afterValidations (some context) runs =
      some (stateAfter Context.act context (runs.flatMap fun run => run.1.tasks run.2)) := by
  induction runs generalizing context with
  | nil => rfl
  | cons run rest ih =>
    rw [afterValidations, List.foldl_cons, run.1.context?_validate_some run.2 context,
      ← afterValidations, ih, List.flatMap_cons, stateAfter, stateAfter, stateAfter,
      List.foldl_append]

/-- The tasks of validations resolve the unions that their bindings need. -/
theorem mem_unions_runs_iff {runs : List (RuleSet × Value)} {u : PatternUnion} :
    u ∈ (runs.flatMap fun run => run.1.tasks run.2).filterMap Task.union? ↔
      u ∈ neededUnions runs := by
  simp only [mem_neededUnions_iff, List.filterMap_flatMap, RuleSet.tasks, List.mem_flatMap,
    Binding.mem_unions_tasks_iff]

/-- What validations leave of a fresh context: the entries of the unions that they need. -/
theorem Context.exists_afterValidations (document : Value) (runs : List (RuleSet × Value)) :
    ∃ context, afterValidations (some (.over document)) runs = some context ∧
      context.cache.traversals = (neededUnions runs).toFinset.card ∧
      context.cache.size = (neededUnions runs).toFinset.card ∧
      ∀ u, context.cache.get? u =
        if u ∈ neededUnions runs then some (Candidates.ofList (u.collect document)) else none := by
  let us := (runs.flatMap fun run => run.1.tasks run.2).filterMap Task.union?
  have hus : ∀ u, u ∈ us ↔ u ∈ neededUnions runs := fun u => mem_unions_runs_iff
  have hafter : afterValidations (some (.over document)) runs =
      some ⟨document, CandidateCache.run (CandidateCache.resolves document us)⟩ := by
    rw [afterValidations_some, stateAfter_act]
    rfl
  refine ⟨_, hafter, ?_, ?_, fun u => ?_⟩
  · rw [CandidateCache.traversals_run_resolves, List.toFinset.ext hus]
  · rw [CandidateCache.size_run_resolves, List.toFinset.ext hus]
  · rw [CandidateCache.get?_run_resolves]
    simp only [hus]

/-! ## The order does not matter -/

/-- The same validations in another order, and the bindings of each rule set in another order. -/
def Rearranged (runs runs' : List (RuleSet × Value)) : Prop :=
  ∃ mid, runs.Perm mid ∧
    List.Forall₂ (fun r s => r.1.references.Perm s.1.references ∧ r.2 = s.2) mid runs'

theorem Rearranged.mem_neededUnions_iff {runs runs' : List (RuleSet × Value)}
    (h : Rearranged runs runs') (u : PatternUnion) :
    u ∈ neededUnions runs' ↔ u ∈ neededUnions runs := by
  obtain ⟨mid, hperm, hall⟩ := h
  have hmid : u ∈ neededUnions mid ↔ u ∈ neededUnions runs := by
    rw [ForeignKey.mem_neededUnions_iff, ForeignKey.mem_neededUnions_iff]
    simp only [hperm.mem_iff]
  rw [← hmid]
  clear hperm hmid
  -- run by run, a permutation of the bindings needs the same unions
  induction hall with
  | nil => rfl
  | @cons r s mid runs' hrs _ ih =>
    have hhead : (u ∈ s.1.references.filterMap fun b => b.needed? s.2) ↔
        u ∈ r.1.references.filterMap fun b => b.needed? r.2 := by
      rw [hrs.2]
      exact (hrs.1.filterMap _).mem_iff.symm
    rw [neededUnions, neededUnions, List.flatMap_cons, List.flatMap_cons, List.mem_append,
      List.mem_append, hhead]
    exact or_congr_right ih

/-- Validations that share a fresh context walk its document once for each union that some binding needs,
and for no other; the walks are the entries. So the entries are the same in whatever order the validations
are made and their bindings stand. A binding without patterns or without a value to check does not touch
the cache. -/
theorem validations_walk_needed_unions_once (document : Value) (runs : List (RuleSet × Value)) :
    ∃ context, Context.afterValidations (some (.over document)) runs = some context ∧
      context.cache.traversals = (neededUnions runs).toFinset.card ∧
      context.cache.size = (neededUnions runs).toFinset.card ∧
      (∀ u, context.cache.get? u =
        if u ∈ neededUnions runs then some (Candidates.ofList (u.collect document)) else none) ∧
      (∀ runs', Rearranged runs runs' →
        ∃ context', Context.afterValidations (some (.over document)) runs' = some context' ∧
          context'.cache.traversals = context.cache.traversals ∧
          ∀ u, context'.cache.get? u = context.cache.get? u) ∧
      (∀ (b : Binding) (target : Value) (context? : Option Context),
        b.paths.raws = [] ∨ b.fieldPattern.locate target = [] →
          b.validate target context? =
            ⟨context?, [], 0, if b.paths.raws = [] then [.bindingSkipped b.field] else []⟩) := by
  obtain ⟨context, hafter, htraversals, hsize, hentries⟩ :=
    Context.exists_afterValidations document runs
  refine ⟨context, hafter, htraversals, hsize, hentries, fun runs' hruns' => ?_,
    fun b target context? h => Binding.validate_of_needless h context?⟩
  obtain ⟨context', hafter', htraversals', -, hentries'⟩ :=
    Context.exists_afterValidations document runs'
  refine ⟨context', hafter', ?_, fun u => ?_⟩
  · rw [htraversals', htraversals, List.toFinset.ext hruns'.mem_neededUnions_iff]
  · rw [hentries', hentries]
    simp only [hruns'.mem_neededUnions_iff]

/-- Two targets, one union in two writings, a list of alternatives in two orders, a binding without
patterns and one without a value: in either order three unions are walked. -/
theorem rearranged_validations_walk_three_unions :
    let document : Value := .object [("makes", .array [.string "nissan"])]
    let target : Value := .object [("cars", .array [.string "nissan", .string "ford"])]
    let idle : Binding := ⟨"cars.[]", .string, .alternatives []⟩
    let absent : Binding := ⟨"planes.[]", .string, .single "planes"⟩
    let first : Binding := ⟨"cars.[]", .string, .single "makes.[]"⟩
    let again : Binding := ⟨"cars", .number, .alternatives [".makes..[]"]⟩
    let both : Binding := ⟨"cars.[]", .string, .alternatives ["makes.[]", "makes"]⟩
    let turned : Binding := ⟨"cars.[]", .string, .alternatives ["makes", "makes.[]"]⟩
    let runs : List (RuleSet × Value) :=
      [(⟨[idle, first, absent]⟩, target), (⟨[both, turned, again]⟩, target)]
    let runs' : List (RuleSet × Value) :=
      [(⟨[again, both, turned]⟩, target), (⟨[first, idle, absent]⟩, target)]
    Rearranged runs runs' ∧ absent.fieldPattern.locate target = [] ∧
      absent.validate target none = ⟨none, [], 0, []⟩ ∧
      ∃ context context', Context.afterValidations (some (.over document)) runs = some context ∧
        Context.afterValidations (some (.over document)) runs' = some context' ∧
        context.cache.traversals = 3 ∧ context'.cache.traversals = 3 ∧
        ∀ u, context'.cache.get? u = context.cache.get? u := by
  intro document target idle absent first again both turned runs runs'
  have hruns' : Rearranged runs runs' := by
    refine ⟨_, List.Perm.swap _ _ [], .cons ⟨?_, rfl⟩ (.cons ⟨?_, rfl⟩ .nil)⟩ <;> decide
  have hnowhere : absent.fieldPattern.locate target = [] := by decide
  obtain ⟨context, hafter, htraversals, -, -, hsame, hneedless⟩ :=
    validations_walk_needed_unions_once document runs
  obtain ⟨context', hafter', htraversals', hentries⟩ := hsame runs' hruns'
  have hthree : context.cache.traversals = 3 := htraversals.trans (by decide)
  exact ⟨hruns', hnowhere, hneedless absent target none (.inr hnowhere), context, context', hafter,
    hafter', hthree, htraversals'.trans hthree, hentries⟩

end ForeignKey
