import Mathlib.Data.Finset.Card
import ForeignKey.CandidateCache
import ForeignKey.Proofs.Clients

/-!
# A cache keeps the first walk of each union

Whatever the sequence of calls, the entry of a union holds what its patterns collected from the document
of its first `resolve`, and the walks are as many as the unions resolved so far. The invariant `Follows`
ties the entries and the counter to the history of the calls; every call keeps it.
-/

namespace ForeignKey

namespace CandidateCache

variable {cache : CandidateCache} {u v : PatternUnion} {document : Value}

/-! ## One call -/

/-- An entry is used if there is one; otherwise the document is walked. -/
theorem candidates_resolve (cache : CandidateCache) (u : PatternUnion) (document : Value) :
    (cache.resolve u document).candidates =
      (cache.get? u).getD (Candidates.ofList (u.collect document)) := by
  cases h : cache.get? u with
  | some c => rw [resolve_of_get?_some h]; rfl
  | none => rw [resolve_of_get?_none h]; rfl

/-- Resolving leaves an entry for its union and touches no other. -/
theorem get?_resolve (cache : CandidateCache) (u v : PatternUnion) (document : Value) :
    (cache.resolve u document).cache.get? v =
      if u = v then some (cache.resolve u document).candidates else cache.get? v := by
  cases h : cache.get? u with
  | some c =>
    rw [resolve_of_get?_some h]
    split
    · next huv => rw [← huv, h]
    · rfl
  | none =>
    rw [resolve_of_get?_none h]
    exact get?_cons u v _ cache.entries _

/-- The unions that have an entry. -/
def unions (cache : CandidateCache) : List PatternUnion := cache.entries.map Prod.fst

theorem mem_unions_iff : u ∈ cache.unions ↔ (cache.get? u).isSome = true := by
  rw [unions, get?, Option.isSome_map, List.find?_isSome, List.mem_map]
  simp only [decide_eq_true_eq]

theorem unions_resolve_of_none (h : cache.get? u = none) (document : Value) :
    (cache.resolve u document).cache.unions = u :: cache.unions := by
  rw [resolve_of_get?_none h]
  rfl

/-! ## A history of calls -/

/-- A call to a cache. -/
inductive Request where
  | resolve (u : PatternUnion) (document : Value)
  | get (u : PatternUnion)

/-- The cache after a call. -/
def after (cache : CandidateCache) : Request → CandidateCache
  | .resolve u document => (cache.resolve u document).cache
  | .get _ => cache

/-- The cache after a sequence of calls, from the first one on. -/
def run (requests : List Request) : CandidateCache := requests.foldl after empty

/-- The unions that a sequence of calls resolves, each with the document that was passed. -/
def resolved (requests : List Request) : List (PatternUnion × Value) :=
  requests.filterMap fun
    | .resolve u document => some (u, document)
    | .get _ => none

/-- The document of the first call that resolves a union. -/
def firstDocument? (requests : List Request) (u : PatternUnion) : Option Value :=
  ((resolved requests).find? (·.1 = u)).map Prod.snd

variable {requests : List Request}

theorem resolved_concat_resolve (requests : List Request) (u : PatternUnion) (document : Value) :
    resolved (requests ++ [.resolve u document]) = resolved requests ++ [(u, document)] := by
  simp [resolved]

theorem resolved_concat_get (requests : List Request) (u : PatternUnion) :
    resolved (requests ++ [.get u]) = resolved requests := by
  simp [resolved]

theorem firstDocument?_isSome_iff :
    (firstDocument? requests u).isSome = true ↔ u ∈ (resolved requests).map Prod.fst := by
  rw [firstDocument?, Option.isSome_map, List.find?_isSome, List.mem_map]
  simp only [decide_eq_true_eq]

/-- A further `resolve` is the first one only for a union that was not resolved before. -/
theorem firstDocument?_concat_resolve (requests : List Request) (u v : PatternUnion)
    (document : Value) :
    firstDocument? (requests ++ [.resolve u document]) v =
      (firstDocument? requests v).or (if u = v then some document else none) := by
  rw [firstDocument?, resolved_concat_resolve, List.find?_append, Option.map_or]
  by_cases h : u = v <;> simp [h, firstDocument?]

/-! ## The invariant -/

/-- `cache` is what the calls leave of an empty cache. -/
structure Follows (cache : CandidateCache) (requests : List Request) : Prop where
  /-- Every entry was one walk. -/
  traversals : cache.traversals = cache.size
  nodup : cache.unions.Nodup
  /-- An entry holds what was collected when its union was first resolved. -/
  entries : ∀ u, cache.get? u =
    (firstDocument? requests u).map fun document => Candidates.ofList (u.collect document)

theorem follows_empty : empty.Follows [] := ⟨rfl, .nil, fun _ => rfl⟩

theorem Follows.mem_unions_iff (h : cache.Follows requests) :
    u ∈ cache.unions ↔ u ∈ (resolved requests).map Prod.fst := by
  rw [CandidateCache.mem_unions_iff, h.entries, Option.isSome_map, firstDocument?_isSome_iff]

/-- A hit: the union was resolved before, so neither the cache nor its first document changes. -/
theorem Follows.resolve_of_some (h : cache.Follows requests) {c : Candidates}
    (hu : cache.get? u = some c) (document : Value) :
    (cache.resolve u document).cache.Follows (requests ++ [.resolve u document]) := by
  rw [resolve_of_get?_some hu]
  refine ⟨h.traversals, h.nodup, fun v => ?_⟩
  rw [h.entries, firstDocument?_concat_resolve]
  split
  · next huv =>
    subst huv
    have hsome : (firstDocument? requests u).isSome = true := by
      rw [← Option.isSome_map, ← h.entries, hu]
      rfl
    rw [Option.or_of_isSome hsome]
  · rw [Option.or_none]

/-- A miss: the union is new, and its entry is made from the document of this call. -/
theorem Follows.resolve_of_none (h : cache.Follows requests) (hu : cache.get? u = none)
    (document : Value) :
    (cache.resolve u document).cache.Follows (requests ++ [.resolve u document]) := by
  have hnot : u ∉ cache.unions := by
    rw [CandidateCache.mem_unions_iff, hu]
    simp
  refine ⟨?_, ?_, fun v => ?_⟩
  · rw [resolve_of_get?_none hu]
    show cache.traversals + 1 = cache.size + 1
    rw [h.traversals]
  · rw [unions_resolve_of_none hu]
    exact List.nodup_cons.mpr ⟨hnot, h.nodup⟩
  · rw [get?_resolve, candidates_resolve, hu, firstDocument?_concat_resolve]
    split
    · next huv =>
      subst huv
      have hfirst : firstDocument? requests u = none := by
        rw [← Option.map_eq_none_iff, ← h.entries, hu]
      rw [hfirst]
      rfl
    · rw [h.entries, Option.or_none]

theorem Follows.after (h : cache.Follows requests) (request : Request) :
    (cache.after request).Follows (requests ++ [request]) := by
  cases request with
  | resolve u document =>
    cases hu : cache.get? u with
    | some c => exact h.resolve_of_some hu document
    | none => exact h.resolve_of_none hu document
  | get u =>
    refine ⟨h.traversals, h.nodup, fun v => ?_⟩
    rw [firstDocument?, resolved_concat_get]
    exact h.entries v

theorem follows_run (requests : List Request) : (run requests).Follows requests :=
  holds_foldl after Follows (fun _ _ request h => h.after request) follows_empty requests

/-! ## What a history leaves -/

theorem Follows.size_eq_card (h : cache.Follows requests) :
    cache.size = ((resolved requests).map Prod.fst).toFinset.card := by
  have hset : ((resolved requests).map Prod.fst).toFinset = cache.unions.toFinset := by
    ext u
    rw [List.mem_toFinset, List.mem_toFinset, h.mem_unions_iff]
  rw [hset, List.toFinset_card_of_nodup h.nodup, unions, List.length_map, size]

theorem get?_after {c : Candidates} (h : cache.get? u = some c) (request : Request) :
    (cache.after request).get? u = some c := by
  cases request with
  | resolve v document =>
    show (cache.resolve v document).cache.get? u = some c
    rw [get?_resolve, candidates_resolve]
    split
    · -- resolving the union itself is a hit
      next hvu => rw [hvu, h]; rfl
    · exact h
  | get v => exact h

/-- An entry stays as it is, whatever is called afterwards. -/
theorem get?_foldl_after {c : Candidates} (h : cache.get? u = some c) (later : List Request) :
    (later.foldl after cache).get? u = some c :=
  List.foldlRecOn (motive := fun left => left.get? u = some c) later after h
    fun _ hkept request _ => get?_after hkept request

theorem run_append (requests later : List Request) :
    run (requests ++ later) = later.foldl after (run requests) :=
  List.foldl_append

/-- After any sequence of calls: as many walks as entries and as unions resolved; under each of those
unions, and no other, what its patterns collect one after the other from the first document it was
resolved with; and no call changes or removes an entry or answers with anything else. -/
theorem run_keeps_first_walks (requests : List Request) :
    let cache := run requests
    cache.traversals = cache.size ∧
    cache.size = ((resolved requests).map Prod.fst).toFinset.card ∧
    (∀ u, (cache.get? u).map Candidates.toList =
      (firstDocument? requests u).map fun document => u.patterns.flatMap (·.collect document)) ∧
    (∀ u c, cache.get? u = some c → ∀ later, (run (requests ++ later)).get? u = some c) ∧
    (∀ u document, (run (requests ++ [.resolve u document])).get? u =
      some (cache.resolve u document).candidates) ∧
    (∀ u, (cache.get? u).isSome = true ↔ u ∈ (resolved requests).map Prod.fst) ∧
    (∀ u, run (requests ++ [.get u]) = cache) := by
  intro cache
  have h : cache.Follows requests := follows_run requests
  refine ⟨h.traversals, h.size_eq_card, fun u => ?_, fun u c hu later => ?_,
    fun u document => ?_, fun u => ?_, fun u => ?_⟩
  · rw [h.entries, Option.map_map]
    congr 1
    funext document
    exact Candidates.toList_ofList _
  · rw [run_append]
    exact get?_foldl_after hu later
  · rw [run_append]
    show (cache.resolve u document).cache.get? u = _
    rw [get?_resolve, if_pos rfl]
  · rw [← CandidateCache.mem_unions_iff, h.mem_unions_iff]
  · rw [run_append]
    rfl

/-- An entry without candidates is kept as well: the document of the second call has the key, but it is
not looked at any more. -/
theorem run_keeps_empty_entry :
    let u := PatternUnion.singleton (.parse "id")
    let first := [.resolve u (.object []), .get u]
    let later := [.resolve u (.object [("id", .null)])]
    (run first).get? u = some (.ofList []) ∧ (run (first ++ later)).get? u = some (.ofList []) := by
  intro u first later
  have hfirst : (run first).get? u = some (.ofList []) := rfl
  obtain ⟨-, -, -, hkept, -⟩ := run_keeps_first_walks first
  exact ⟨hfirst, hkept u _ hfirst later⟩

end CandidateCache

end ForeignKey
