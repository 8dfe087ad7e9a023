import ForeignKey.Candidates
import ForeignKey.Event

/-!
# The candidate cache

Checking every row of an array against the same place would walk the document once a row. The cache
walks it once for each union of patterns and keeps the candidates. An entry is never changed or
removed, so a cache belongs to one document for its whole life; it does not look at the document
again once an entry exists.
-/

namespace ForeignKey

/-- Candidates by union of patterns, and the number of walks made for them. -/
structure CandidateCache where
  entries : List (PatternUnion × Candidates)
  traversals : Nat

/-- The answer of a cache: the candidates, the cache afterwards, and how it came by them. -/
structure Resolution where
  candidates : Candidates
  cache : CandidateCache
  event : Event

namespace CandidateCache

/-- A cache without entries. -/
def empty : CandidateCache := ⟨[], 0⟩

/-- The entry of a union, if there is one. -/
def get? (cache : CandidateCache) (u : PatternUnion) : Option Candidates :=
  (cache.entries.find? (·.1 = u)).map (·.2)

/-- The entry of a union, walking the document only if there is none yet. An empty list of
candidates is kept like any other. -/
def resolve (cache : CandidateCache) (u : PatternUnion) (document : Value) : Resolution :=
  match cache.get? u with
  | some candidates => ⟨candidates, cache, .cacheHit u⟩
  | none =>
    let candidates := Candidates.ofList (u.collect document)
    ⟨candidates, ⟨(u, candidates) :: cache.entries, cache.traversals + 1⟩,
      .entryBuilt u candidates.size⟩

/-- The number of entries. -/
def size (cache : CandidateCache) : Nat := cache.entries.length

/-- Whether there are no entries. -/
def isEmpty (cache : CandidateCache) : Bool := cache.entries.isEmpty

/-! ## What resolving changes -/

@[simp] theorem get?_empty (u : PatternUnion) : empty.get? u = none := rfl

theorem get?_cons (u v : PatternUnion) (c : Candidates) (rest : List (PatternUnion × Candidates))
    (n : Nat) : get? ⟨(u, c) :: rest, n⟩ v = if u = v then some c else get? ⟨rest, n⟩ v := by
  unfold get?
  rw [List.find?_cons]
  by_cases h : u = v <;> simp [h]

theorem resolve_of_get?_some {cache : CandidateCache} {u : PatternUnion} {c : Candidates}
    (h : cache.get? u = some c) (document : Value) :
    cache.resolve u document = ⟨c, cache, .cacheHit u⟩ := by
  unfold resolve; rw [h]

theorem resolve_of_get?_none {cache : CandidateCache} {u : PatternUnion} (h : cache.get? u = none)
    (document : Value) :
    cache.resolve u document =
      let candidates := Candidates.ofList (u.collect document)
      ⟨candidates, ⟨(u, candidates) :: cache.entries, cache.traversals + 1⟩,
        .entryBuilt u candidates.size⟩ := by
  unfold resolve; rw [h]

end CandidateCache

end ForeignKey
