import Std.Data.String.ToNat
import ForeignKey.Proofs.Validation.Tasks

/-!
# The events of a validation account for it

Every task tells what it does: a skipped binding with one event, a check with one event of the cache and
one about its outcome. What the log shows of one turn is read off the caches before and after it, and the
numbers of its lines are the changes of the counters; so the lines of a whole validation add up to its
summary.
-/

namespace ForeignKey

/-! ## Lines of a log -/

/-- An event as a log shows it: how important it is, what it is about, and its named details. -/
structure LogLine where
  level : EventLevel
  message : String
  fields : List (String × String)

namespace LogLine

/-- Whether the document was walked. -/
def isBuilt (line : LogLine) : Bool := line.message = "fk cache entry built"

/-- Whether a value was looked up. -/
def isCheck (line : LogLine) : Bool := line.message = "fk check"

/-- Whether a value was looked up and not found. -/
def isMiss (line : LogLine) : Bool :=
  line.isCheck && line.fields.lookup "found" == some "false"

/-- The number that a line shows under a name. -/
def count? (line : LogLine) (name : String) : Option Nat :=
  (line.fields.lookup name).bind String.toNat?

end LogLine

namespace Event

/-- The line of an event. -/
def line (event : Event) : LogLine := ⟨event.level, event.message, event.fields⟩

/-- The numbers that an event tells, by their names. -/
def counts : Event → List (String × Nat)
  | .entryBuilt _ values => [("values", values)]
  | .finished bindings values errors traversals? =>
    [("bindings", bindings), ("checked", values), ("errors", errors)]
      ++ (traversals?.map fun n => ("traversals", n)).toList
  | _ => []

/-- The numbers that an event tells are read off its line. -/
theorem count?_line {event : Event} {name : String} {n : Nat} (h : (name, n) ∈ event.counts) :
    event.line.count? name = some n := by
  have hfield : event.fields.lookup name = some (toString n) := by
    cases event with
    | entryBuilt patterns values =>
      obtain ⟨rfl, rfl⟩ := Prod.mk.inj (List.mem_singleton.mp h)
      rfl
    | finished bindings values errors traversals? =>
      rcases List.mem_append.mp h with h | h
      · simp only [List.mem_cons, Prod.mk.injEq, List.not_mem_nil, or_false] at h
        rcases h with ⟨rfl, rfl⟩ | ⟨rfl, rfl⟩ | ⟨rfl, rfl⟩ <;> rfl
      · obtain ⟨_, rfl, hcount⟩ := Option.map_eq_some_iff.mp (Option.mem_toList.mp h)
        obtain ⟨rfl, rfl⟩ := Prod.mk.inj hcount
        rfl
    | _ => cases h
  rw [LogLine.count?, line, hfield]
  exact Nat.toNat?_repr n

theorem line_checked (value : Value) (paths : ReferencePaths) (found : Bool) :
    (checked value paths found).line =
      ⟨.trace, "fk check",
        [("value", value.toJson), ("path", paths.text), ("found", toString found)]⟩ := by
  cases found <;> rfl

/-- The field text of the binding that was passed over. -/
def skipped? : Event → Option String
  | .bindingSkipped field => some field
  | _ => none

theorem skipped?_eq_some_iff {event : Event} {field : String} :
    event.skipped? = some field ↔ event = .bindingSkipped field := by
  cases event <;> simp [skipped?]

end Event

/-! ## One task -/

/-- The rule and the located value that a task checks. -/
def Task.check? : Task → Option (Rule × Location × Value)
  | .skip _ => none
  | .check rule found => some (rule, found)

/-- The field text of the binding that a task skips. -/
def Task.skipped? : Task → Option String
  | .skip field => some field
  | .check _ _ => none

/-- The lines of a turn. -/
def Turn.log (t : Turn Context Task Progress) : List LogLine := t.answer.events.map Event.line

/-- What the lines of a turn tell, by the caches before and after it. -/
inductive Told (t : Turn Context Task Progress) : Prop where
  | skipped {field : String} (task : t.call = .skip field)
      (log : t.log = [⟨.warn, "binding lists no fk patterns, skipped", [("field", field)]⟩])
  | built {rule : Rule} {found : Location × Value} {c : Candidates} (task : t.call = .check rule found)
      (before : t.before.cache.get? rule.patterns = none)
      (after : t.after.cache.get? rule.patterns = some c)
      (log : t.log =
        [⟨.debug, "fk cache entry built",
          [("key", rule.patterns.text), ("values", toString c.toList.length)]⟩,
        ⟨.trace, "fk check", [("value", found.2.toJson), ("path", rule.paths.text),
          ("found", toString (c.contains found.2))]⟩])
  | hit {rule : Rule} {found : Location × Value} {c : Candidates} (task : t.call = .check rule found)
      (before : t.before.cache.get? rule.patterns = some c)
      (log : t.log =
        [⟨.trace, "fk cache hit", [("key", rule.patterns.text)]⟩,
        ⟨.trace, "fk check", [("value", found.2.toJson), ("path", rule.paths.text),
          ("found", toString (c.contains found.2))]⟩])

/-- The counters of a turn change as its lines say. -/
structure Counted (t : Turn Context Task Progress) : Prop where
  checked : t.answer.checked = t.log.countP LogLine.isCheck
  errors : t.answer.errors.length = t.log.countP LogLine.isMiss
  traversals : t.after.cache.traversals =
    t.before.cache.traversals + t.log.countP LogLine.isBuilt

/-- The violations of a located value that is looked up among candidates: one, or none. -/
def Rule.complaints (rule : Rule) (found : Location × Value) (c : Candidates) : List Violation :=
  ((rule.verdict? found.2 (c.contains found.2)).map (Violation.ofFailure found.1)).toList

theorem Rule.length_complaints (rule : Rule) (found : Location × Value) (c : Candidates) :
    (rule.complaints found c).length =
      [(Event.checked found.2 rule.paths (c.contains found.2)).line].countP LogLine.isMiss := by
  rw [complaints, verdict?]
  cases c.contains found.2 <;> rfl

namespace Context

variable {context : Context} {rule : Rule}

theorem act_check_of_some {c : Candidates} (h : context.cache.get? rule.patterns = some c)
    (found : Location × Value) :
    context.act (.check rule found) =
      (⟨some context, rule.complaints found c, 1,
        [.cacheHit rule.patterns, .checked found.2 rule.paths (c.contains found.2)]⟩, context) := by
  rw [act, Task.perform, Rule.validateAt, Rule.check, CandidateCache.resolve_of_get?_some h]
  rfl

theorem act_check_of_none (h : context.cache.get? rule.patterns = none) (found : Location × Value) :
    context.act (.check rule found) =
      let c := Candidates.ofList (rule.patterns.collect context.document)
      let next : Context := ⟨context.document,
        ⟨(rule.patterns, c) :: context.cache.entries, context.cache.traversals + 1⟩⟩
      (⟨some next, rule.complaints found c, 1,
        [.entryBuilt rule.patterns c.toList.length,
          .checked found.2 rule.paths (c.contains found.2)]⟩, next) := by
  rw [act, Task.perform, Rule.validateAt, Rule.check, CandidateCache.resolve_of_get?_none h]
  simp only [← Candidates.size_eq_length]
  rfl

/-- What a turn tells is what it did. -/
theorem told_turn (context : Context) (task : Task) : Told (turn act context task) := by
  cases task with
  | skip field => exact .skipped rfl rfl
  | check rule found =>
    cases h : context.cache.get? rule.patterns with
    | some c =>
      refine .hit rfl h ?_
      rw [turn, act_check_of_some h, ← Event.line_checked]
      rfl
    | none =>
      rw [turn, act_check_of_none h]
      refine .built (c := Candidates.ofList (rule.patterns.collect context.document)) rfl h ?_ ?_
      · -- the entry was put in front of the others
        rw [CandidateCache.get?_cons, if_pos rfl]
      · rw [← Event.line_checked]
        rfl

theorem counted_turn (context : Context) (task : Task) : Counted (turn act context task) := by
  cases task with
  | skip field => exact ⟨rfl, rfl, rfl⟩
  | check rule found =>
    cases h : context.cache.get? rule.patterns with
    | some c =>
      rw [turn, act_check_of_some h]
      exact ⟨rfl, rule.length_complaints found c, rfl⟩
    | none =>
      rw [turn, act_check_of_none h]
      exact ⟨rfl, rule.length_complaints found _, rfl⟩

theorem filterMap_skipped_turn (context : Context) (task : Task) :
    (turn act context task).answer.events.filterMap Event.skipped? = task.skipped?.toList := by
  cases task with
  | skip field => rfl
  | check rule found =>
    cases h : context.cache.get? rule.patterns with
    | some c =>
      rw [turn, act_check_of_some h]
      rfl
    | none =>
      rw [turn, act_check_of_none h]
      rfl

end Context

/-! ## All tasks -/

/-- The events of turns, in their order. -/
def eventsOf (ts : List (Turn Context Task Progress)) : List Event := ts.flatMap (·.answer.events)

/-- The lines of turns, in their order. -/
def logOf (ts : List (Turn Context Task Progress)) : List LogLine := ts.flatMap Turn.log

variable {ts : List (Turn Context Task Progress)}

theorem map_line_eventsOf : (eventsOf ts).map Event.line = logOf ts :=
  List.map_flatMap

theorem sum_checked_eq_countP (h : ∀ t ∈ ts, Counted t) :
    (ts.map (·.answer.checked)).sum = (logOf ts).countP LogLine.isCheck := by
  rw [logOf, List.countP_flatMap]
  congr 1
  exact List.map_congr_left fun t ht => (h t ht).checked

theorem length_errors_eq_countP (h : ∀ t ∈ ts, Counted t) :
    (ts.flatMap (·.answer.errors)).length = (logOf ts).countP LogLine.isMiss := by
  rw [logOf, List.countP_flatMap, List.length_flatMap]
  congr 1
  exact List.map_congr_left fun t ht => (h t ht).errors

theorem Context.traversals_stateAfter (context : Context) (tasks : List Task) :
    (stateAfter act context tasks).cache.traversals = context.cache.traversals +
      (logOf (turns act context tasks)).countP LogLine.isBuilt := by
  induction tasks generalizing context with
  | nil => rfl
  | cons task rest ih =>
    show (stateAfter act (turn act context task).after rest).cache.traversals = _
    rw [ih, (context.counted_turn task).traversals, turns, logOf, logOf, List.flatMap_cons,
      List.countP_append, Nat.add_assoc]
    rfl

/-! ## Without a context -/

/-- Without a context tasks fail for every value that they check, and tell of skipped bindings only. -/
theorem Task.performAll_none (tasks : List Task) :
    performAll tasks none =
      ⟨none,
        (tasks.filterMap check?).map fun c => .ofFailure c.2.1 (.missingContext c.1.base),
        (tasks.filterMap check?).length,
        (tasks.filterMap skipped?).map .bindingSkipped⟩ := by
  induction tasks with
  | nil => rfl
  | cons task rest ih =>
    cases task with
    | skip field =>
      rw [performAll]
      show Progress.followedBy _ (performAll rest none) = _
      rw [ih]
      simp [Progress.followedBy, perform, List.filterMap_cons, check?, skipped?]
    | check rule found =>
      rw [performAll]
      show Progress.followedBy _ (performAll rest none) = _
      rw [ih]
      simp [Progress.followedBy, perform, List.filterMap_cons, check?, skipped?, Rule.validateAt,
        Rule.check, Nat.add_comm]

/-- The located values that a validation checks for a binding. -/
def Binding.boundValues (b : Binding) (target : Value) : List (Location × Value) :=
  if b.paths.raws = [] then [] else b.fieldPattern.locate target

/-- The located values that a validation checks, in its order. -/
def RuleSet.boundValues (rules : RuleSet) (target : Value) : List (Location × Value) :=
  rules.references.flatMap fun b => b.boundValues target

/-- The field texts of the bindings without patterns. -/
def RuleSet.skippedFields (rules : RuleSet) : List String :=
  (rules.references.filter fun b => b.paths.raws = []).map (·.field)

/-- What is made of a check by its base type is made of the located values. -/
theorem Binding.map_checks {α : Type} (b : Binding) (target : Value)
    (f : BaseType → Location × Value → α) :
    (((b.tasks target).filterMap Task.check?).map fun c => f c.1.base c.2) =
      (b.boundValues target).map (f b.base) := by
  rw [tasks, boundValues]
  cases hrule : b.rule? with
  | none =>
    rw [if_pos (rule?_eq_none_iff.mp hrule)]
    rfl
  | some rule =>
    rw [if_neg (raws_ne_nil_of_rule? hrule), ← (of_rule?_eq_some hrule).1]
    simp [Task.check?, Function.comp_def]

theorem Binding.map_snd_checks (b : Binding) (target : Value) :
    ((b.tasks target).filterMap Task.check?).map Prod.snd = b.boundValues target := by
  rw [b.map_checks target fun _ found => found, List.map_id']

theorem Binding.filterMap_skipped_tasks (b : Binding) (target : Value) :
    (b.tasks target).filterMap Task.skipped? = if b.paths.raws = [] then [b.field] else [] := by
  rw [tasks]
  cases hrule : b.rule? with
  | none =>
    rw [if_pos (rule?_eq_none_iff.mp hrule)]
    rfl
  | some rule =>
    rw [if_neg (raws_ne_nil_of_rule? hrule)]
    simp [Task.skipped?]

theorem RuleSet.map_snd_checks (rules : RuleSet) (target : Value) :
    ((rules.tasks target).filterMap Task.check?).map Prod.snd = rules.boundValues target := by
  simp only [tasks, boundValues, List.filterMap_flatMap, List.map_flatMap, Binding.map_snd_checks]

theorem RuleSet.filterMap_skipped_tasks (rules : RuleSet) (target : Value) :
    (rules.tasks target).filterMap Task.skipped? = rules.skippedFields := by
  rw [tasks, skippedFields, List.filterMap_flatMap]
  simp only [Binding.filterMap_skipped_tasks]
  induction rules.references with
  | nil => rfl
  | cons b rest ih =>
    rw [List.flatMap_cons, ih]
    by_cases h : b.paths.raws = [] <;> simp [h]

/-! ## Whole validations -/

namespace RuleSet

variable (rules : RuleSet) (target : Value)

/-- The summary of a validation in a context counts the lines before it. -/
theorem events_validate_some (context : Context) :
    let ts := turns Context.act context (rules.tasks target)
    (rules.validate target (some context)).events = eventsOf ts ++
      [.finished rules.references.length ((logOf ts).countP LogLine.isCheck)
        ((logOf ts).countP LogLine.isMiss)
        (some (context.cache.traversals + (logOf ts).countP LogLine.isBuilt))] := by
  intro ts
  have hcounted : ∀ t ∈ ts, Counted t := forall_mem_turns Context.counted_turn context _
  rw [validate_eq_performAll, Task.performAll_some]
  show eventsOf ts ++ [.finished rules.references.length (ts.map (·.answer.checked)).sum
    (ts.flatMap (·.answer.errors)).length
    (some (stateAfter Context.act context (rules.tasks target)).cache.traversals)] = _
  rw [sum_checked_eq_countP hcounted, length_errors_eq_countP hcounted,
    context.traversals_stateAfter]

theorem length_errors_validate_some (context : Context) :
    (rules.validate target (some context)).report.errors.length =
      (logOf (turns Context.act context (rules.tasks target))).countP LogLine.isMiss := by
  have hcounted := forall_mem_turns Context.counted_turn context (rules.tasks target)
  rw [validate_eq_performAll, Task.performAll_some]
  exact length_errors_eq_countP hcounted

theorem length_checks :
    ((rules.tasks target).filterMap Task.check?).length = (rules.boundValues target).length := by
  rw [← rules.map_snd_checks target, List.length_map]

theorem events_validate_none :
    (rules.validate target none).events = rules.skippedFields.map .bindingSkipped ++
      [.finished rules.references.length (rules.boundValues target).length
        (rules.boundValues target).length none] := by
  rw [validate_eq_performAll, Task.performAll_none, rules.filterMap_skipped_tasks target]
  show _ ++ [Event.finished _ _ _ _] = _
  rw [List.length_map, rules.length_checks target]
  rfl

/-- With or without a context, a validation tells of the bindings that it skips, in their order. -/
theorem filterMap_skipped_events (context? : Option Context) :
    (rules.validate target context?).events.filterMap Event.skipped? = rules.skippedFields := by
  cases context? with
  | none =>
    rw [events_validate_none, List.filterMap_append, List.filterMap_map]
    show rules.skippedFields.filterMap some ++ [] = _
    rw [List.filterMap_some, List.append_nil]
  | some context =>
    let ts := turns Context.act context (rules.tasks target)
    have htold : ∀ t ∈ ts, t.answer.events.filterMap Event.skipped? = t.call.skipped?.toList :=
      forall_mem_turns Context.filterMap_skipped_turn context _
    have hevents : (eventsOf ts).filterMap Event.skipped? = rules.skippedFields := by
      calc (eventsOf ts).filterMap Event.skipped?
          = ts.flatMap fun t => t.call.skipped?.toList := by
            rw [eventsOf, List.filterMap_flatMap]
            exact List.flatMap_congr htold
        _ = (ts.map Turn.call).filterMap Task.skipped? := by
            rw [List.filterMap_map, List.filterMap_eq_flatMap_toList]
            rfl
        _ = rules.skippedFields := by rw [map_call_turns, rules.filterMap_skipped_tasks target]
    rw [events_validate_some, List.filterMap_append, hevents]
    exact List.append_nil _

/-- A validation in a context tells of the skipped bindings and of no other. -/
theorem mem_events_bindingSkipped_iff (context : Context) {field : String} :
    .bindingSkipped field ∈ (rules.validate target (some context)).events ↔
      field ∈ rules.skippedFields := by
  rw [← rules.filterMap_skipped_events target (some context), List.mem_filterMap]
  simp only [Event.skipped?_eq_some_iff, exists_eq_right]

theorem length_errors_validate_none :
    (rules.validate target none).report.errors.length = (rules.boundValues target).length := by
  rw [validate_eq_performAll, Task.performAll_none]
  show (List.map _ _).length = _
  rw [List.length_map, rules.length_checks target]

/-- In whatever state a run is, the log of a validation is that of its tasks, each told by the caches that
it found and left, and a summary of them: how many bindings there are, how many values were looked up, how
many of these were missed, which are the violations, and how many walks there have been. Without a context
the log is that of the skipped bindings and a summary, by which every located value was missed. -/
theorem events_account_for_validation :
    (∀ context : Context,
      let v := rules.validate target (some context)
      let log := v.events.map Event.line
      let ts := turns Context.act context (rules.tasks target)
      ts.map Turn.call = rules.tasks target ∧ (∀ t ∈ ts, Told t) ∧
      log = logOf ts ++ [⟨.debug, "fk validation finished",
        [("bindings", toString rules.references.length),
          ("checked", toString (log.countP LogLine.isCheck)),
          ("errors", toString (log.countP LogLine.isMiss)),
          ("traversals", toString (context.cache.traversals + log.countP LogLine.isBuilt))]⟩] ∧
      v.report.errors.length = log.countP LogLine.isMiss ∧
      v.context? = some (stateAfter Context.act context (rules.tasks target))) ∧
    (let v := rules.validate target none
      let n := (rules.boundValues target).length
      v.events.map Event.line =
        rules.skippedFields.map (fun field =>
          ⟨.warn, "binding lists no fk patterns, skipped", [("field", field)]⟩) ++
        [⟨.debug, "fk validation finished",
          [("bindings", toString rules.references.length), ("checked", toString n),
            ("errors", toString n)]⟩] ∧
      v.report.errors.length = n) := by
  refine ⟨fun context => ?_, ?_, rules.length_errors_validate_none target⟩
  · intro v log ts
    let finished : Event := .finished rules.references.length ((logOf ts).countP LogLine.isCheck)
      ((logOf ts).countP LogLine.isMiss)
      (some (context.cache.traversals + (logOf ts).countP LogLine.isBuilt))
    have hlog : log = logOf ts ++ [finished.line] := by
      have hlines := congrArg (List.map Event.line) (rules.events_validate_some target context)
      rwa [List.map_append, map_line_eventsOf] at hlines
    -- the summary itself counts as none of the three
    have hcount (p : LogLine → Bool) (hp : p finished.line = false) :
        log.countP p = (logOf ts).countP p := by
      rw [hlog, List.countP_append, List.countP_singleton, hp]
      rfl
    have hmiss := hcount LogLine.isMiss rfl
    refine ⟨map_call_turns context _, forall_mem_turns Context.told_turn context _, ?_, ?_, ?_⟩
    · rw [hcount LogLine.isCheck rfl, hmiss, hcount LogLine.isBuilt rfl]
      exact hlog
    · rw [hmiss]
      exact rules.length_errors_validate_some target context
    · exact rules.context?_validate_some target context
  · rw [rules.events_validate_none target, List.map_append, List.map_map]
    rfl

/-- A skipped binding and two cars: the second car finds the candidates of the first one, and the number of
errors in the summary is that of the violations. -/
theorem events_of_second_car :
    let document : Value := .object [("makes", .array [.string "nissan"])]
    let target : Value := .object [("cars", .array [.string "nissan", .string "ford"])]
    let rules : RuleSet :=
      ⟨[⟨"cars", .number, .alternatives []⟩, ⟨"cars.[]", .string, .single "makes.[]"⟩]⟩
    let v := rules.validate target (some (.over document))
    let log := v.events.map Event.line
    ∃ t ∈ turns Context.act (.over document) (rules.tasks target),
      (∃ rule, t.call = .check rule (⟨[.key "cars", .index 1]⟩, .string "ford")) ∧
      t.before.cache.traversals = 1 ∧ Told t ∧
      v.report.errors.length = log.countP LogLine.isMiss ∧
      ∃ summary ∈ log, summary.count? "errors" = some v.report.errors.length := by
  intro document target rules v log
  let rule : Rule := ⟨.string, .single "makes.[]", .singleton (.parse "makes.[]"), by decide⟩
  have htasks : rules.tasks target =
      [.skip "cars", .check rule (⟨[.key "cars", .index 0]⟩, .string "nissan"),
        .check rule (⟨[.key "cars", .index 1]⟩, .string "ford")] := by rfl
  obtain ⟨-, htold, hlog, herrors, -⟩ :=
    (events_account_for_validation rules target).1 (.over document)
  have hthird (a b c : Task) :
      turn Context.act (stateAfter Context.act (.over document) [a, b]) c ∈
        turns Context.act (.over document) [a, b, c] :=
    .tail _ (.tail _ (.head _))
  have hmem := hthird (.skip "cars") (.check rule (⟨[.key "cars", .index 0]⟩, .string "nissan"))
    (.check rule (⟨[.key "cars", .index 1]⟩, .string "ford"))
  rw [← htasks] at hmem
  let finished : Event := .finished rules.references.length (log.countP LogLine.isCheck)
    (log.countP LogLine.isMiss)
    (some ((Context.over document).cache.traversals + log.countP LogLine.isBuilt))
  have hsummary : finished.line ∈ log :=
    Eq.mpr (congrArg (finished.line ∈ ·) hlog)
      (List.mem_append_right _ (List.mem_singleton_self finished.line))
  have hcount : finished.line.count? "errors" = some v.report.errors.length := by
    rw [herrors]
    exact Event.count?_line (.tail _ (.tail _ (.head _)))
  exact ⟨_, hmem, ⟨rule, rfl⟩, by decide, htold _ hmem, herrors, _, hsummary, hcount⟩

end RuleSet

end ForeignKey
