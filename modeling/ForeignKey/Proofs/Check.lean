import ForeignKey.Check
import ForeignKey.Proofs.CandidateCache
import ForeignKey.Proofs.Candidates
import ForeignKey.Proofs.Pattern.Evaluation

/-!
# One check answers by a search

As long as a context's cache holds what its document would give (`Context.Sound`), the look-up of a check
finds a value exactly when a direct search of the document does, and the context stays so. Whether the
candidates came from the cache or from a walk cannot be seen in the answer.
-/

namespace ForeignKey

/-! ## Unions -/

namespace PatternUnion

/-- Whether a value occurs at a place that some pattern of the union describes. -/
def occurs (u : PatternUnion) (value document : Value) : Bool :=
  u.patterns.any fun p => p.occurs value document

/-- Looking a value up among all candidates of a union is searching for it pattern by pattern. -/
theorem contains_ofList_collect (u : PatternUnion) (value document : Value) :
    (Candidates.ofList (u.collect document)).contains value = u.occurs value document := by
  rw [Bool.eq_iff_iff, (Candidates.represents_ofList _).contains_iff, collect, occurs]
  simp only [Pattern.occurs_eq_any_collect, ← List.any_flatMap, List.any_eq_true]

end PatternUnion

/-! ## Caches over one document -/

namespace CandidateCache

/-- Every entry holds what a walk over the document gives. -/
def Faithful (cache : CandidateCache) (document : Value) : Prop :=
  ∀ u c, cache.get? u = some c → c = Candidates.ofList (u.collect document)

variable {cache : CandidateCache} {document : Value}

theorem faithful_empty (document : Value) : empty.Faithful document := by
  intro u c h
  rw [get?_empty] at h
  cases h

theorem Faithful.candidates_resolve (h : cache.Faithful document) (u : PatternUnion) :
    (cache.resolve u document).candidates = Candidates.ofList (u.collect document) := by
  rw [CandidateCache.candidates_resolve]
  cases hu : cache.get? u with
  | some c => exact h u c hu
  | none => rfl

theorem Faithful.resolve (h : cache.Faithful document) (u : PatternUnion) :
    (cache.resolve u document).cache.Faithful document := by
  intro v c hv
  rw [get?_resolve, h.candidates_resolve] at hv
  split at hv
  · next huv =>
    subst huv
    exact (Option.some.inj hv).symm
  · exact h v c hv

end CandidateCache

/-! ## Checks in a sound context -/

/-- The context of a run over `document`, whatever was checked in it before. -/
structure Context.Sound (context : Context) (document : Value) : Prop where
  document_eq : context.document = document
  faithful : context.cache.Faithful document

theorem Context.sound_over (document : Value) : (Context.over document).Sound document :=
  ⟨rfl, CandidateCache.faithful_empty document⟩

namespace Rule

variable {context : Context} {document : Value}

/-- A check fails exactly when no pattern of the rule reaches the value. -/
theorem failure?_check (h : context.Sound document) (rule : Rule) (value : Value) :
    (rule.check value (some context)).failure? =
      rule.verdict? value (rule.patterns.occurs value document) := by
  show rule.verdict? value ((context.cache.resolve rule.patterns
    context.document).candidates.contains value) = _
  rw [h.document_eq, h.faithful.candidates_resolve, PatternUnion.contains_ofList_collect]

/-- A check, failed or not, leaves a sound context. -/
theorem exists_state?_check (h : context.Sound document) (rule : Rule) (value : Value) :
    ∃ next, (rule.check value (some context)).state? = some next ∧ next.Sound document := by
  refine ⟨_, rfl, h.document_eq, ?_⟩
  show (context.cache.resolve rule.patterns context.document).cache.Faithful document
  rw [h.document_eq]
  exact h.faithful.resolve rule.patterns

end Rule

end ForeignKey
