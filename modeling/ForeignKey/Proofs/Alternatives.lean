import ForeignKey.Proofs.Lint.Places
import ForeignKey.Proofs.Validation

/-!
# Alternatives as a set

A check searches one document pattern by pattern, so its verdict is that of the set of its patterns: their
order, their repetition and the way they are written do not count, although each order of them has a cache
entry of its own. Lint reports the alternatives that add nothing to those before them. Deleting them leaves
the set as it is, without repetitions.
-/

namespace ForeignKey

/-! ## Verdicts -/

namespace Rule

/-- Whether a rule finds a value in the document of a context. -/
def Accepts (rule : Rule) (value : Value) (context : Context) : Prop :=
  (rule.check value (some context)).failure? = none

variable {rule rule' : Rule} {document value : Value} {context context' : Context}

/-- The patterns of a rule are those of its declaration. -/
theorem patterns_eq_map_parse (rule : Rule) :
    rule.patterns.patterns = rule.paths.raws.map Pattern.parse :=
  PatternUnion.patterns_of_ofList? rule.declared

theorem exists_ofPaths? (base : BaseType) (paths : ReferencePaths) (h : paths.raws ≠ []) :
    ∃ rule, ofPaths? base paths = some rule ∧ rule.paths = paths := by
  cases hrule : Binding.rule? ⟨"", base, paths⟩ with
  | none => exact absurd (Binding.rule?_eq_none_iff.mp hrule) h
  | some rule => exact ⟨rule, hrule, (Binding.of_rule?_eq_some hrule).2.1⟩

theorem accepts_iff (h : context.Sound document) :
    rule.Accepts value context ↔
      ∃ p ∈ rule.paths.raws.map Pattern.parse, p.occurs value document = true := by
  rw [Accepts, failure?_check h, verdict?, ← patterns_eq_map_parse, ← List.any_eq_true,
    ← PatternUnion.occurs]
  cases rule.patterns.occurs value document <;> simp

/-- Rules with the same set of patterns accept the same values, whatever was checked before. -/
theorem accepts_congr
    (hset : ∀ p, p ∈ rule.paths.raws.map Pattern.parse ↔ p ∈ rule'.paths.raws.map Pattern.parse)
    (h : context.Sound document) (h' : context'.Sound document) :
    rule.Accepts value context ↔ rule'.Accepts value context' := by
  rw [accepts_iff h, accepts_iff h']
  simp only [hset]

/-- A rule whose patterns are those of two others accepts what either accepts. -/
theorem accepts_append {first second : Rule} {context₁ context₂ : Context}
    (hraws : rule.paths.raws = first.paths.raws ++ second.paths.raws) (h : context.Sound document)
    (h₁ : context₁.Sound document) (h₂ : context₂.Sound document) :
    rule.Accepts value context ↔ first.Accepts value context₁ ∨ second.Accepts value context₂ := by
  rw [accepts_iff h, accepts_iff h₁, accepts_iff h₂, hraws, List.map_append]
  simp only [List.mem_append, or_and_right, exists_or]

/-- A check leaves an entry for its own patterns and touches no other. -/
theorem entries_after_check (rule : Rule) (value : Value) (context : Context) :
    ∃ next, (rule.check value (some context)).state? = some next ∧
      (next.cache.get? rule.patterns).isSome = true ∧
      ∀ u, u ≠ rule.patterns → next.cache.get? u = context.cache.get? u := by
  refine ⟨_, rfl, ?_, fun u hu => ?_⟩
  · show ((context.cache.resolve rule.patterns context.document).cache.get? rule.patterns).isSome = true
    rw [CandidateCache.get?_resolve, if_pos rfl]
    rfl
  · show (context.cache.resolve rule.patterns context.document).cache.get? u = _
    rw [CandidateCache.get?_resolve, if_neg (Ne.symm hu)]

end Rule

/-! ## Deleting alternatives -/

namespace ReferencePaths

/-- The declaration without the alternatives at some indices. A single text stays. -/
def without (paths : ReferencePaths) (dropped : Nat → Bool) : ReferencePaths :=
  match paths with
  | .single raw => .single raw
  | .alternatives raws => .alternatives ((raws.zipIdx.filter fun r => !dropped r.2).map Prod.fst)

example : (alternatives ["a", "b", ".a"]).without (· == 2) = .alternatives ["a", "b"] := by decide

variable {paths : ReferencePaths} {dropped : Nat → Bool}

theorem mem_raws_without_iff {raws : List String} {raw : String} :
    raw ∈ ((alternatives raws).without dropped).raws ↔
      ∃ j, raws[j]? = some raw ∧ dropped j = false := by
  show raw ∈ (raws.zipIdx.filter fun r => !dropped r.2).map Prod.fst ↔ _
  simp [List.mem_filter, List.mk_mem_zipIdx_iff_getElem?]

/-- Of the alternatives that read alike the first one stays, so no pattern is lost. -/
theorem mem_map_parse_without_iff (hdropped : ∀ j, dropped j = true ↔ paths.Repeats j) (p : Pattern) :
    p ∈ (paths.without dropped).raws.map Pattern.parse ↔ p ∈ paths.raws.map Pattern.parse := by
  cases paths with
  | single raw => rfl
  | alternatives raws =>
    have hkept (j : Nat) : ∀ raw, raws[j]? = some raw →
        Pattern.parse raw ∈ ((alternatives raws).without dropped).raws.map Pattern.parse := by
      induction j using Nat.strong_induction_on with
      | h j ih =>
        intro raw hraw
        cases hj : dropped j with
        | false => exact List.mem_map_of_mem (mem_raws_without_iff.mpr ⟨j, hraw, hj⟩)
        | true =>
          obtain ⟨k, hk, earlier, raw', hearlier, hraw', hparse⟩ := (hdropped j).mp hj
          obtain rfl := Option.some.inj (hraw.symm.trans hraw')
          rw [← hparse]
          exact ih k hk earlier hearlier
    constructor
    · intro hp
      obtain ⟨raw, hraw, rfl⟩ := List.mem_map.mp hp
      obtain ⟨j, hj, -⟩ := mem_raws_without_iff.mp hraw
      exact List.mem_map_of_mem (List.mem_of_getElem? hj)
    · intro hp
      obtain ⟨raw, hraw, rfl⟩ := List.mem_map.mp hp
      obtain ⟨j, hj⟩ := List.getElem?_of_mem hraw
      exact hkept j raw hj

theorem nodup_map_parse_without (hdropped : ∀ j, dropped j = true ↔ paths.Repeats j) :
    ((paths.without dropped).raws.map Pattern.parse).Nodup := by
  cases paths with
  | single raw => exact List.nodup_singleton _
  | alternatives raws =>
    show (((raws.zipIdx.filter fun r => !dropped r.2).map Prod.fst).map Pattern.parse).Nodup
    rw [List.map_map, List.Nodup, List.pairwise_map]
    refine ((pairwise_lt_zipIdx raws).filter _).imp_of_mem fun {r s} hr hs hlt hparse => ?_
    obtain ⟨hr, -⟩ := List.mem_filter.mp hr
    obtain ⟨hs, hstays⟩ := List.mem_filter.mp hs
    -- the later of two that read alike was dropped
    have hrepeats : (alternatives raws).Repeats s.2 :=
      ⟨r.2, hlt, r.1, s.1, List.mk_mem_zipIdx_iff_getElem?.mp hr,
        List.mk_mem_zipIdx_iff_getElem?.mp hs, hparse⟩
    rw [(hdropped s.2).mpr hrepeats] at hstays
    cases hstays

end ReferencePaths

/-- The binding at an index without the alternatives that lint reports as repeated. -/
def RuleSet.unrepeated (rules : RuleSet) (i : Nat) (b : Binding) : Binding :=
  { b with paths := b.paths.without fun j => rules.reportsRepetitionAt (pathPlace b.paths i j) }

namespace RuleSet

variable {rules : RuleSet} {i : Nat} {b : Binding}

theorem mem_map_parse_unrepeated_iff (hb : rules.references[i]? = some b) (p : Pattern) :
    p ∈ (rules.unrepeated i b).paths.raws.map Pattern.parse ↔ p ∈ b.paths.raws.map Pattern.parse :=
  ReferencePaths.mem_map_parse_without_iff (reportsRepetitionAt_iff hb) p

/-- Wherever the binding stands then, lint reports no repetition in it. -/
theorem reportsRepetitionAt_unrepeated (hb : rules.references[i]? = some b) {rules' : RuleSet} {i' : Nat}
    (hb' : rules'.references[i']? = some (rules.unrepeated i b)) (j : Nat) :
    rules'.reportsRepetitionAt (pathPlace (rules.unrepeated i b).paths i' j) = false := by
  rw [← Bool.not_eq_true, reportsRepetitionAt_iff hb']
  exact ReferencePaths.not_repeats_of_nodup
    (ReferencePaths.nodup_map_parse_without (reportsRepetitionAt_iff hb)) j

theorem exists_rule?_unrepeated (hb : rules.references[i]? = some b) {rule : Rule}
    (hrule : b.rule? = some rule) :
    ∃ rule', (rules.unrepeated i b).rule? = some rule' ∧
      ∀ p, p ∈ rule.paths.raws.map Pattern.parse ↔ p ∈ rule'.paths.raws.map Pattern.parse := by
  obtain ⟨-, hpaths, -⟩ := Binding.of_rule?_eq_some hrule
  cases hrule' : (rules.unrepeated i b).rule? with
  | none =>
    -- what was not empty still has its patterns
    have hnil := Binding.rule?_eq_none_iff.mp hrule'
    obtain ⟨raw, hraw⟩ := List.exists_mem_of_ne_nil _ (Binding.raws_ne_nil_of_rule? hrule)
    have hmem := (mem_map_parse_unrepeated_iff hb _).mpr (List.mem_map_of_mem hraw)
    rw [hnil] at hmem
    cases hmem
  | some rule' =>
    obtain ⟨-, hpaths', -⟩ := Binding.of_rule?_eq_some hrule'
    refine ⟨rule', rfl, fun p => ?_⟩
    rw [hpaths, hpaths', mem_map_parse_unrepeated_iff hb]

end RuleSet

/-! ## Unions -/

/-- The alternatives of one list followed by those of another accept what either list accepts, in all
contexts that runs over one document reach. So rules with the same set of patterns give the same verdicts,
though a check leaves the entries of all other lists of patterns as they are. Lint reports exactly the
alternatives that read as an earlier one, and the binding without them has patterns, is not reported any
more in whatever rule set, and gives the same verdicts. -/
theorem alternatives_form_a_union :
    (∀ (rule : Rule) (document value : Value) (c : Context), c.Reachable document →
      (rule.Accepts value c ↔
        ∃ p ∈ rule.paths.raws.map Pattern.parse, p.occurs value document = true)) ∧
    (∀ (base base₁ base₂ : BaseType) (as bs : List String), as ≠ [] → bs ≠ [] →
      ∃ both first second, Rule.ofPaths? base (.alternatives (as ++ bs)) = some both ∧
        Rule.ofPaths? base₁ (.alternatives as) = some first ∧
        Rule.ofPaths? base₂ (.alternatives bs) = some second ∧
        ∀ (document value : Value) (c c₁ c₂ : Context), c.Reachable document →
          c₁.Reachable document → c₂.Reachable document →
          (both.Accepts value c ↔ first.Accepts value c₁ ∨ second.Accepts value c₂)) ∧
    (∀ rule rule' : Rule,
      (∀ p, p ∈ rule.paths.raws.map Pattern.parse ↔ p ∈ rule'.paths.raws.map Pattern.parse) →
      ∀ (document value : Value) (c c' : Context), c.Reachable document → c'.Reachable document →
        (rule.Accepts value c ↔ rule'.Accepts value c')) ∧
    (∀ (rule rule' : Rule) (value : Value) (c : Context),
      rule.paths.raws.map Pattern.parse ≠ rule'.paths.raws.map Pattern.parse →
      ∃ next, (rule.check value (some c)).state? = some next ∧
        (next.cache.get? rule.patterns).isSome = true ∧
        next.cache.get? rule'.patterns = c.cache.get? rule'.patterns) ∧
    (∀ (rules : RuleSet) (i : Nat) (b : Binding), rules.references[i]? = some b →
      (∀ j, rules.reportsRepetitionAt (pathPlace b.paths i j) = true ↔
        ∃ k < j, ∃ earlier raw, b.paths.raws[k]? = some earlier ∧ b.paths.raws[j]? = some raw ∧
          Pattern.parse earlier = Pattern.parse raw) ∧
      (∀ (rules' : RuleSet) (i' : Nat), rules'.references[i']? = some (rules.unrepeated i b) →
        ∀ j, rules'.reportsRepetitionAt (pathPlace (rules.unrepeated i b).paths i' j) = false) ∧
      ∀ rule, b.rule? = some rule →
        (rules.unrepeated i b).paths.raws ≠ [] ∧
        ∃ rule', (rules.unrepeated i b).rule? = some rule' ∧
          ∀ (document value : Value) (c c' : Context), c.Reachable document → c'.Reachable document →
            (rule.Accepts value c ↔ rule'.Accepts value c')) := by
  refine ⟨fun rule document value c h => Rule.accepts_iff h.sound,
    fun base base₁ base₂ as bs has hbs => ?_, fun rule rule' hset document value c c' h h' =>
    Rule.accepts_congr hset h.sound h'.sound, fun rule rule' value c hne => ?_,
    fun rules i b hb => ⟨RuleSet.reportsRepetitionAt_iff hb, fun rules' i' hb' =>
      RuleSet.reportsRepetitionAt_unrepeated hb hb', fun rule hrule => ?_⟩⟩
  · obtain ⟨both, hboth, hpaths⟩ := Rule.exists_ofPaths? base (.alternatives (as ++ bs))
      (List.append_ne_nil_of_left_ne_nil has bs)
    obtain ⟨first, hfirst, hpaths₁⟩ := Rule.exists_ofPaths? base₁ (.alternatives as) has
    obtain ⟨second, hsecond, hpaths₂⟩ := Rule.exists_ofPaths? base₂ (.alternatives bs) hbs
    refine ⟨both, first, second, hboth, hfirst, hsecond, fun document value c c₁ c₂ h h₁ h₂ => ?_⟩
    have hraws : both.paths.raws = first.paths.raws ++ second.paths.raws := by
      rw [hpaths, hpaths₁, hpaths₂]
      rfl
    exact Rule.accepts_append hraws h.sound h₁.sound h₂.sound
  · obtain ⟨next, hnext, hown, hothers⟩ := rule.entries_after_check value c
    refine ⟨next, hnext, hown, hothers rule'.patterns fun h => hne ?_⟩
    rw [← rule.patterns_eq_map_parse, ← rule'.patterns_eq_map_parse, h]
  · obtain ⟨rule', hrule', hset⟩ := RuleSet.exists_rule?_unrepeated hb hrule
    exact ⟨Binding.raws_ne_nil_of_rule? hrule', rule', hrule', fun document value c c' h h' =>
      Rule.accepts_congr hset h.sound h'.sound⟩

/-- An imported car, in a fresh context and in one whose cache has an entry: the second list accepts it, so
both together do, and without the third alternative, which writes the first one otherwise, the binding
accepts it as before. -/
theorem alternatives_of_imported_car :
    let document : Value :=
      .object [("makes", .array [.string "nissan"]), ("imports", .array [.string "ford"])]
    let ford : Value := .string "ford"
    let b : Binding := ⟨"cars.[]", .string, .alternatives ["makes.[]", "imports.[]", ".makes.[]"]⟩
    let rules : RuleSet := ⟨[b]⟩
    ∃ (both first second rule rule' : Rule) (warm : Context),
      both.paths = .alternatives ["makes.[]", "imports.[]"] ∧ b.rule? = some rule ∧
      warm.Reachable document ∧ warm.cache.traversals = 1 ∧
      (both.Accepts ford warm ↔ first.Accepts ford (.over document) ∨ second.Accepts ford warm) ∧
      second.Accepts ford warm ∧ (both.Accepts ford warm ↔ rule.Accepts ford (.over document)) ∧
      rules.reportsRepetitionAt "references[0].fk[2]" = true ∧
      (rules.unrepeated 0 b).rule? = some rule' ∧ rule'.paths = both.paths ∧
      (rule.Accepts ford warm ↔ rule'.Accepts ford (.over document)) := by
  intro document ford b rules
  obtain ⟨haccepts, hunion, hset, -, hlint⟩ := alternatives_form_a_union
  obtain ⟨both, first, second, hboth, hfirst, hsecond, happend⟩ :=
    hunion .string .string .string ["makes.[]"] ["imports.[]"] (by decide) (by decide)
  obtain ⟨rule, hrule, hpaths⟩ := Rule.exists_ofPaths? .string b.paths (by decide)
  have hb : rules.references[0]? = some b := rfl
  obtain ⟨hrepeats, -, hverdict⟩ := hlint rules 0 b hb
  obtain ⟨-, rule', hrule', hsame⟩ := hverdict rule hrule
  have hfresh : Context.Reachable document (.over document) := .fresh
  have hwarm : Context.Reachable document
      ⟨document, (CandidateCache.empty.resolve first.patterns document).cache⟩ :=
    .step (.check first ford) hfresh rfl
  have hpathsBoth : both.paths = .alternatives ["makes.[]", "imports.[]"] :=
    (Binding.of_rule?_eq_some (b := ⟨"", .string, _⟩) hboth).2.1
  have hpathsSecond : second.paths = .alternatives ["imports.[]"] :=
    (Binding.of_rule?_eq_some (b := ⟨"", .string, _⟩) hsecond).2.1
  have hunrepeated : (rules.unrepeated 0 b).paths = .alternatives ["makes.[]", "imports.[]"] := by
    decide
  have hpaths' : rule'.paths = .alternatives ["makes.[]", "imports.[]"] :=
    (Binding.of_rule?_eq_some hrule').2.1.trans hunrepeated
  refine ⟨both, first, second, rule, rule', _, hpathsBoth, hrule, hwarm, rfl,
    happend document ford _ _ _ hwarm hfresh hwarm, ?_, ?_, ?_, hrule', hpaths'.trans hpathsBoth.symm,
    hsame document ford _ _ hwarm hfresh⟩
  · rw [haccepts second document ford _ hwarm, hpathsSecond]
    decide
  · refine hset both rule (fun p => ?_) document ford _ _ hwarm hfresh
    rw [hpathsBoth, hpaths, ← hunrepeated]
    exact RuleSet.mem_map_parse_unrepeated_iff hb p
  · have hplace : "references[0].fk[2]" = pathPlace b.paths 0 2 := by decide
    have hread : Pattern.parse "makes.[]" = Pattern.parse ".makes.[]" := by decide
    rw [hplace, hrepeats]
    exact ⟨0, by decide, "makes.[]", ".makes.[]", rfl, rfl, hread⟩

end ForeignKey
