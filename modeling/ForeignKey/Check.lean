import ForeignKey.CandidateCache
import ForeignKey.CandidateCache.Shared
import ForeignKey.Failure

/-!
# Checking one value

A rule is checked for a value against a lookup document. The context of a run holds that document
with its candidate cache; all checks of the run pass it on, so that each union of patterns is walked
once. Without a context a check fails and does nothing else.
-/

namespace ForeignKey

/-- The state of a run: the document that references are looked up in, and its cache. -/
structure Context where
  document : Value
  cache : CandidateCache

/-- A fresh context over a document. -/
def Context.over (document : Value) : Context := ⟨document, .empty⟩

/-- What a check gives: the failure if there is one, the state to go on with, and the events. -/
structure Check (State : Type) where
  failure? : Option Failure
  state? : Option State
  events : List Event

namespace Rule

/-- The failure of a rule whose look-up ended with `found`. -/
def verdict? (rule : Rule) (value : Value) (found : Bool) : Option Failure :=
  if found then none else some (.notFound rule.base value rule.paths)

/-- Checks that one of the rule's patterns reaches the value in the context's document. -/
def check (rule : Rule) (value : Value) : Option Context → Check Context
  | none => ⟨some (.missingContext rule.base), none, []⟩
  | some context =>
    let r := context.cache.resolve rule.patterns context.document
    let found := r.candidates.contains value
    ⟨rule.verdict? value found, some { context with cache := r.cache },
      [r.event, .checked value rule.paths found]⟩

/-- Checks a value against a document whose cache is shared. -/
def checkShared (rule : Rule) (value : Value) :
    Option (Value × SharedCandidateCache) → Check SharedCandidateCache
  | none => ⟨some (.missingContext rule.base), none, []⟩
  | some (document, cache) =>
    let r := cache.resolve rule.patterns document
    let found := r.entry.candidates.contains value
    ⟨rule.verdict? value found, some r.cache, [r.event, .checked value rule.paths found]⟩

end Rule

end ForeignKey
