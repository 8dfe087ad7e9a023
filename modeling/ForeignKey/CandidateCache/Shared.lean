import ForeignKey.Candidates
import ForeignKey.Event

/-!
# The shared candidate cache

A cache for hosts that check fields from several places at once. It hands out entries that its
clients keep, each numbered by the walk that built it, so that two clients can tell whether they hold
the same entry. Looking up and building is one step: clients that ask for the same missing union get
one walk and one entry.
-/

namespace ForeignKey

/-- Candidates as they are handed out, with the number of the walk that found them. -/
structure SharedEntry where
  number : Nat
  candidates : Candidates

/-- Entries by union of patterns, and the number of walks made for them. -/
structure SharedCandidateCache where
  entries : List (PatternUnion × SharedEntry)
  traversals : Nat

/-- The answer of a shared cache. -/
structure SharedResolution where
  entry : SharedEntry
  cache : SharedCandidateCache
  event : Event

namespace SharedCandidateCache

/-- A cache without entries. -/
def empty : SharedCandidateCache := ⟨[], 0⟩

/-- The entry of a union, if there is one. -/
def get? (cache : SharedCandidateCache) (u : PatternUnion) : Option SharedEntry :=
  (cache.entries.find? (·.1 = u)).map (·.2)

/-- Hands out the entry of a union, walking the document only if there is none yet. -/
def resolve (cache : SharedCandidateCache) (u : PatternUnion) (document : Value) :
    SharedResolution :=
  match cache.get? u with
  | some entry => ⟨entry, cache, .cacheHit u⟩
  | none =>
    let entry : SharedEntry := ⟨cache.traversals, Candidates.ofList (u.collect document)⟩
    ⟨entry, ⟨(u, entry) :: cache.entries, cache.traversals + 1⟩,
      .entryBuilt u entry.candidates.size⟩

/-- The number of entries. -/
def size (cache : SharedCandidateCache) : Nat := cache.entries.length

/-- Whether there are no entries. -/
def isEmpty (cache : SharedCandidateCache) : Bool := cache.entries.isEmpty

end SharedCandidateCache

end ForeignKey
