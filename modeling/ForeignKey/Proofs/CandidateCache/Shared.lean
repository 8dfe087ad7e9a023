import ForeignKey.Check
import ForeignKey.Proofs.CandidateCache
import ForeignKey.Proofs.Clients

/-!
# A shared cache answers like an exclusive one

Both caches look for an entry and walk the document if there is none, but one keeps candidates and the
other numbered entries that its clients hold on to. Forgetting the numbers relates their states
(`Mirrors`), and every call keeps that: so they give the same candidates, the same verdicts and the same
counts, call by call. The numbers are those of the walks, so two clients hold the same entry exactly when
they asked for the same union.

Looking up and building is one step of a shared cache. By `ForeignKey.Proofs.Clients` all of this holds in
every interleaving of its clients' calls as well.
-/

namespace ForeignKey

/-! ## Calls -/

/-- What clients do with a cache that belongs to a run. -/
inductive CacheCall where
  | resolve (u : PatternUnion) (document : Value)
  /-- A check, with the cache or without anything to look in. -/
  | check (rule : Rule) (value : Value) (hasCache : Bool)

/-- What a call to a cache gives: an entry, or the failure of a check if there is one. -/
inductive CacheReply (Entry : Type) where
  | entry (e : Entry)
  | verdict (failure? : Option Failure)

/-- The reply with another view of the entry. -/
def CacheReply.map {Entry Entry' : Type} (f : Entry → Entry') : CacheReply Entry → CacheReply Entry'
  | .entry e => .entry (f e)
  | .verdict failure? => .verdict failure?

/-- A call to an exclusive cache whose checks look in `document`. -/
def CandidateCache.act (document : Value) (cache : CandidateCache) :
    CacheCall → CacheReply Candidates × CandidateCache
  | .resolve u other =>
    let r := cache.resolve u other
    (.entry r.candidates, r.cache)
  | .check rule value hasCache =>
    let c := rule.check value (if hasCache then some ⟨document, cache⟩ else none)
    (.verdict c.failure?, (c.state?.map (·.cache)).getD cache)

/-- A call to a shared cache whose checks look in `document`. -/
def SharedCandidateCache.act (document : Value) (cache : SharedCandidateCache) :
    CacheCall → CacheReply SharedEntry × SharedCandidateCache
  | .resolve u other =>
    let r := cache.resolve u other
    (.entry r.entry, r.cache)
  | .check rule value hasCache =>
    let c := rule.checkShared value (if hasCache then some (document, cache) else none)
    (.verdict c.failure?, c.state?.getD cache)

namespace SharedCandidateCache

variable {shared : SharedCandidateCache} {cache : CandidateCache} {u v : PatternUnion}
  {document : Value}

/-! ## Looking up -/

theorem get?_cons (u v : PatternUnion) (e : SharedEntry) (rest : List (PatternUnion × SharedEntry))
    (n : Nat) : get? ⟨(u, e) :: rest, n⟩ v = if u = v then some e else get? ⟨rest, n⟩ v := by
  unfold get?
  rw [List.find?_cons]
  by_cases h : u = v <;> simp [h]

theorem resolve_of_get?_some {e : SharedEntry} (h : shared.get? u = some e) (document : Value) :
    shared.resolve u document = ⟨e, shared, .cacheHit u⟩ := by
  unfold resolve
  rw [h]

theorem resolve_of_get?_none (h : shared.get? u = none) (document : Value) :
    shared.resolve u document =
      let e : SharedEntry := ⟨shared.traversals, Candidates.ofList (u.collect document)⟩
      ⟨e, ⟨(u, e) :: shared.entries, shared.traversals + 1⟩, .entryBuilt u e.candidates.size⟩ := by
  unfold resolve
  rw [h]

/-! ## The same answers -/

/-- A shared cache has the entries of an exclusive one, and made as many walks. -/
structure Mirrors (shared : SharedCandidateCache) (cache : CandidateCache) : Prop where
  entries : shared.entries.map (fun e => (e.1, e.2.candidates)) = cache.entries
  traversals : shared.traversals = cache.traversals

theorem mirrors_empty : empty.Mirrors .empty := ⟨rfl, rfl⟩

theorem Mirrors.get? (h : shared.Mirrors cache) (u : PatternUnion) :
    (shared.get? u).map (·.candidates) = cache.get? u := by
  rw [SharedCandidateCache.get?, CandidateCache.get?, ← h.entries, List.find?_map, Option.map_map,
    Option.map_map]
  rfl

theorem Mirrors.size (h : shared.Mirrors cache) : shared.size = cache.size := by
  rw [SharedCandidateCache.size, CandidateCache.size, ← h.entries, List.length_map]

theorem Mirrors.isEmpty (h : shared.Mirrors cache) : shared.isEmpty = cache.isEmpty := by
  rw [SharedCandidateCache.isEmpty, CandidateCache.isEmpty, ← h.entries, List.isEmpty_map]

/-- Resolving gives the same candidates and leaves mirrored caches, on a hit and on a miss. -/
theorem Mirrors.resolve (h : shared.Mirrors cache) (u : PatternUnion) (document : Value) :
    (shared.resolve u document).entry.candidates = (cache.resolve u document).candidates ∧
      (shared.resolve u document).cache.Mirrors (cache.resolve u document).cache := by
  have hget := h.get? u
  cases hu : shared.get? u with
  | some e =>
    rw [hu] at hget
    rw [resolve_of_get?_some hu, CandidateCache.resolve_of_get?_some hget.symm]
    exact ⟨rfl, h⟩
  | none =>
    rw [hu] at hget
    rw [resolve_of_get?_none hu, CandidateCache.resolve_of_get?_none hget.symm]
    refine ⟨rfl, ?_, ?_⟩
    · show (u, _) :: List.map _ shared.entries = (u, _) :: cache.entries
      rw [h.entries]
    · show shared.traversals + 1 = cache.traversals + 1
      rw [h.traversals]

/-- A call to an exclusive cache and the same call to a shared one look alike from outside: the same
candidates or the same failure, the same counts afterwards, and no change by a check without a cache. -/
structure SameTurn (t : Turn CandidateCache CacheCall (CacheReply Candidates))
    (s : Turn SharedCandidateCache CacheCall (CacheReply SharedEntry)) : Prop where
  call : t.call = s.call
  answer : t.answer = s.answer.map (·.candidates)
  traversals : t.after.traversals = s.after.traversals
  size : t.after.size = s.after.size
  isEmpty : t.after.isEmpty = s.after.isEmpty
  unchanged : ∀ rule value, t.call = .check rule value false → t.after = t.before ∧ s.after = s.before

theorem Mirrors.act (h : shared.Mirrors cache) (document : Value) (call : CacheCall) :
    (shared.act document call).2.Mirrors (cache.act document call).2 ∧
      (cache.act document call).1 = (shared.act document call).1.map (·.candidates) := by
  cases call with
  | resolve u other =>
    obtain ⟨hentry, hcache⟩ := h.resolve u other
    exact ⟨hcache, congrArg CacheReply.entry hentry.symm⟩
  | check rule value hasCache =>
    cases hasCache with
    | false => exact ⟨h, rfl⟩
    | true =>
      obtain ⟨hentry, hcache⟩ := h.resolve rule.patterns document
      refine ⟨hcache, ?_⟩
      show CacheReply.verdict (rule.verdict? value _) = .verdict (rule.verdict? value _)
      rw [← hentry]

theorem Mirrors.sameTurn (h : shared.Mirrors cache) (document : Value) (call : CacheCall) :
    SameTurn (turn (CandidateCache.act document) cache call)
      (turn (SharedCandidateCache.act document) shared call) := by
  obtain ⟨hafter, hanswer⟩ := h.act document call
  refine ⟨rfl, hanswer, hafter.traversals.symm, hafter.size.symm, hafter.isEmpty.symm, ?_⟩
  rintro rule value rfl
  exact ⟨rfl, rfl⟩

/-! ## The same entry -/

/-- Resolving leaves an entry for its union and touches no other. -/
theorem get?_resolve (shared : SharedCandidateCache) (u v : PatternUnion) (document : Value) :
    (shared.resolve u document).cache.get? v =
      if u = v then some (shared.resolve u document).entry else shared.get? v := by
  cases h : shared.get? u with
  | some e =>
    rw [resolve_of_get?_some h]
    split
    · next huv => rw [← huv, h]
    · rfl
  | none =>
    rw [resolve_of_get?_none h]
    exact get?_cons u v _ shared.entries _

theorem get?_resolve_of_some {e : SharedEntry} (h : shared.get? v = some e) (u : PatternUnion)
    (document : Value) : (shared.resolve u document).cache.get? v = some e := by
  rw [get?_resolve]
  split
  · next huv =>
    subst huv
    rw [resolve_of_get?_some h]
  · exact h

/-- All that a call can do to a shared cache is to resolve a union. -/
theorem act_cases (document : Value) (shared : SharedCandidateCache) (call : CacheCall) :
    (shared.act document call).2 = shared ∨
      ∃ u other, (shared.act document call).2 = (shared.resolve u other).cache := by
  cases call with
  | resolve u other => exact .inr ⟨u, other, rfl⟩
  | check rule value hasCache =>
    cases hasCache with
    | false => exact .inl rfl
    | true => exact .inr ⟨rule.patterns, document, rfl⟩

/-- Entries are numbered by walks that were made, those of different unions by different ones. -/
structure Numbered (shared : SharedCandidateCache) : Prop where
  lt : ∀ u e, shared.get? u = some e → e.number < shared.traversals
  injective : ∀ u v e f, shared.get? u = some e → shared.get? v = some f → e.number = f.number → u = v

theorem numbered_empty : empty.Numbered := by
  refine ⟨fun u e h => ?_, fun u v e f h => ?_⟩ <;> cases h

theorem Numbered.resolve (h : shared.Numbered) (u : PatternUnion) (document : Value) :
    (shared.resolve u document).cache.Numbered := by
  cases hu : shared.get? u with
  | some e =>
    rw [resolve_of_get?_some hu]
    exact h
  | none =>
    rw [resolve_of_get?_none hu]
    -- the new entry has the number of this walk, which lies above all others
    refine ⟨fun v e hv => ?_, fun v w e f hv hw heq => ?_⟩
    · rw [get?_cons] at hv
      split at hv
      · cases hv
        exact Nat.lt_succ_self _
      · exact Nat.lt_succ_of_lt (h.lt v e hv)
    · rw [get?_cons] at hv hw
      split at hv <;> split at hw
      · next huv huw => rw [← huv, huw]
      · cases hv
        have hlt := h.lt w f hw
        rw [← heq] at hlt
        exact absurd hlt (Nat.lt_irrefl _)
      · cases hw
        have hlt := h.lt v e hv
        rw [heq] at hlt
        exact absurd hlt (Nat.lt_irrefl _)
      · exact h.injective v w e f hv hw heq

theorem Numbered.act (h : shared.Numbered) (document : Value) (call : CacheCall) :
    (shared.act document call).2.Numbered := by
  rcases act_cases document shared call with hact | ⟨u, other, hact⟩
  · rw [hact]
    exact h
  · rw [hact]
    exact h.resolve u other

theorem get?_act_of_some {e : SharedEntry} (h : shared.get? u = some e) (document : Value)
    (call : CacheCall) : (shared.act document call).2.get? u = some e := by
  rcases act_cases document shared call with hact | ⟨v, other, hact⟩
  · rw [hact]
    exact h
  · rw [hact]
    exact get?_resolve_of_some h v other

/-- What a call hands out for a union is still its entry when all calls have been made. -/
theorem get?_stateAfter_of_mem_turns {calls : List CacheCall}
    {t : Turn SharedCandidateCache CacheCall (CacheReply SharedEntry)} {other : Value}
    (ht : t ∈ turns (act document) shared calls) (hcall : t.call = .resolve u other) :
    ∃ e, t.answer = .entry e ∧ (stateAfter (act document) shared calls).get? u = some e := by
  induction calls generalizing shared with
  | nil => cases ht
  | cons first rest ih =>
    rcases List.mem_cons.mp ht with rfl | ht
    · obtain rfl : first = .resolve u other := hcall
      refine ⟨_, rfl, ?_⟩
      refine stateAfter_induction
        (motive := fun left => get? left u = some (shared.resolve u other).entry)
        (fun _ call h => get?_act_of_some h document call) ?_ rest
      show (shared.resolve u other).cache.get? u = _
      rw [get?_resolve, if_pos rfl]
    · exact ih ht

/-- Among some turns, two calls that resolve unions are handed the same entry exactly when the unions are
the same. The number of an entry tells which one it is. -/
def SharesByUnion (ts : List (Turn SharedCandidateCache CacheCall (CacheReply SharedEntry))) : Prop :=
  ∀ t ∈ ts, ∀ s ∈ ts, ∀ u v document other,
    t.call = .resolve u document → s.call = .resolve v other →
      ∃ e f, t.answer = .entry e ∧ s.answer = .entry f ∧ (e.number = f.number ↔ u = v) ∧
        (u = v → e = f)

theorem sharesByUnion_turns (h : shared.Numbered) (document : Value) (calls : List CacheCall) :
    SharesByUnion (turns (act document) shared calls) := by
  intro t ht s hs u v other other' hu hv
  obtain ⟨e, he, hgete⟩ := get?_stateAfter_of_mem_turns ht hu
  obtain ⟨f, hf, hgetf⟩ := get?_stateAfter_of_mem_turns hs hv
  have hnumbered : (stateAfter (act document) shared calls).Numbered :=
    stateAfter_induction (fun s call h => h.act document call) h calls
  have heq : u = v → e = f := by
    rintro rfl
    rw [hgete] at hgetf
    exact Option.some.inj hgetf
  exact ⟨e, f, he, hf, ⟨hnumbered.injective u v e f hgete hgetf, fun h => by rw [heq h]⟩, heq⟩

/-! ## Sequences and interleavings -/

/-- Any sequence of calls, of which the checks look in one document: a fresh shared cache and a fresh
exclusive one look alike at every call, and the shared one hands out one entry for each union. The same
goes for the calls of several clients in any interleaving, taken in the order in which they were made;
each client's calls are made in its own order. -/
theorem shared_looks_exclusive (document : Value) :
    (∀ calls, List.Forall₂ SameTurn (turns (CandidateCache.act document) .empty calls)
        (turns (SharedCandidateCache.act document) .empty calls) ∧
      SharesByUnion (turns (SharedCandidateCache.act document) .empty calls)) ∧
    (∀ (Client : Type) [DecidableEq Client] (programs : Client → List CacheCall)
      (c : Clients Client SharedCandidateCache CacheCall (CacheReply SharedEntry)),
      c.Reachable (SharedCandidateCache.act document) programs .empty →
        List.Forall₂ SameTurn (turns (CandidateCache.act document) .empty c.calls) c.taken ∧
        SharesByUnion c.taken ∧
        ∀ client, c.callsOf client ++ c.pending client = programs client) := by
  have hsame (calls : List CacheCall) :
      List.Forall₂ SameTurn (turns (CandidateCache.act document) .empty calls)
        (turns (SharedCandidateCache.act document) .empty calls) :=
    forall₂_turns (R := fun cache shared => Mirrors shared cache)
      (fun _ _ call h => (h.act document call).1) (fun _ _ call h => h.sameTurn document call)
      mirrors_empty calls
  have hshares (calls : List CacheCall) :
      SharesByUnion (turns (SharedCandidateCache.act document) .empty calls) :=
    sharesByUnion_turns numbered_empty document calls
  refine ⟨fun calls => ⟨hsame calls, hshares calls⟩, fun Client _ programs c hc => ?_⟩
  have hserial := hc.serial
  rw [hserial.taken_eq]
  exact ⟨hsame c.calls, hshares c.calls, hserial.program_eq⟩

/-- Two clients write one pattern in two ways and pass different documents, and a check without a cache
comes in between: there is one walk, and both hold its entry. -/
theorem interleaved_clients_share_entry :
    let document : Value := .object [("id", .null)]
    let u := PatternUnion.singleton (.parse "id")
    let v := PatternUnion.singleton (.parse ".id.")
    let rule : Rule := ⟨.string, .single "id", u, by decide⟩
    let programs : Bool → List CacheCall := fun client =>
      if client then [.resolve u document, .check rule .null false] else [.resolve v (.object [])]
    ∃ c : Clients Bool SharedCandidateCache CacheCall (CacheReply SharedEntry),
      c.Reachable (SharedCandidateCache.act document) programs .empty ∧
      c.calls = [.resolve u document, .check rule .null false, .resolve v (.object [])] ∧
      c.state.traversals = 1 ∧
      List.Forall₂ SameTurn (turns (CandidateCache.act document) .empty c.calls) c.taken ∧
      SharesByUnion c.taken := by
  intro document u v rule programs
  let act := SharedCandidateCache.act document
  let start : Clients Bool SharedCandidateCache CacheCall (CacheReply SharedEntry) :=
    ⟨programs, .empty, []⟩
  let first := start.takeTurn act true (.resolve u document) [.check rule .null false]
  let second := first.takeTurn act true (.check rule .null false) []
  let last := second.takeTurn act false (.resolve v (.object [])) []
  have hlast : last.Reachable act programs .empty :=
    .step (.step (.step .start (.turn rfl)) (.turn rfl)) (.turn rfl)
  obtain ⟨-, hclients⟩ := shared_looks_exclusive document
  obtain ⟨hsame, hshares, -⟩ := hclients Bool programs last hlast
  exact ⟨last, hlast, rfl, rfl, hsame, hshares⟩

end SharedCandidateCache

end ForeignKey
