import ForeignKey.Proofs.Lint.Counts
import ForeignKey.Proofs.Validation.Events

/-!
# When lint is silent

A text gives no reason for a warning if it is written as its pattern is and its keys consist of visible
ASCII characters other than brackets. Main statement: lint is silent exactly about the rule sets with such
texts, with reference paths everywhere and with no pattern twice in a binding. Where it is not, every text
has a warning for each reason that it gives, and missing reference paths are reported for exactly the
bindings that a validation skips.
-/

namespace ForeignKey

/-! ## Tidy texts -/

theorem ordinary_iff {key : String} :
    holdsBracket key = false ∧ isPlainKey key = true ↔
      ∀ c ∈ key.toList, 0x21 ≤ c.toNat ∧ c.toNat ≤ 0x7E ∧ c ≠ '[' ∧ c ≠ ']' := by
  rw [← Bool.not_eq_true, holdsBracket_iff, isPlainKey_iff]
  constructor
  · rintro ⟨hbracket, hplain⟩ c hc
    obtain ⟨hlow, hhigh⟩ := hplain c hc
    refine ⟨hlow, hhigh, ?_, ?_⟩
    · rintro rfl
      exact hbracket (.inl hc)
    · rintro rfl
      exact hbracket (.inr hc)
  · intro h
    refine ⟨?_, fun c hc => ⟨(h c hc).1, (h c hc).2.1⟩⟩
    rintro (hc | hc)
    · exact (h _ hc).2.2.1 rfl
    · exact (h _ hc).2.2.2 rfl

/-- Whether a text gives no reason for a warning: it is written as its pattern is, and its keys consist of
visible ASCII characters other than brackets. -/
structure TidyText (raw : String) : Prop where
  written : (Pattern.parse raw).text = raw
  ordinary : ∀ key ∈ (Pattern.parse raw).keys, ∀ c ∈ key.toList,
    0x21 ≤ c.toNat ∧ c.toNat ≤ 0x7E ∧ c ≠ '[' ∧ c ≠ ']'

theorem textFindings_eq_nil_iff {raw : String} : textFindings raw = [] ↔ TidyText raw := by
  have hparts : textFindings raw = [] ↔ hasStraySeparators raw = false ∧
      ∀ key ∈ (Pattern.parse raw).keys, holdsBracket key = false ∧ isPlainKey key = true := by
    rw [textFindings, List.append_eq_nil_iff, List.append_eq_nil_iff, List.map_eq_nil_iff,
      List.map_eq_nil_iff, List.filter_eq_nil_iff, List.filter_eq_nil_iff]
    split
    · next hstray => simp [hstray]
    · next hstray => simp [hstray, forall_and]
  rw [hparts, hasStraySeparators_eq_false_iff]
  simp only [ordinary_iff]
  exact ⟨fun h => ⟨h.1, h.2⟩, fun h => ⟨h.written, h.ordinary⟩⟩

/-! ## Tidy bindings -/

/-- Whether a binding gives no reason for a warning: it has reference paths, which are different patterns,
and its texts are tidy. -/
structure Binding.Tidy (b : Binding) : Prop where
  some_paths : b.paths.raws ≠ []
  texts : ∀ raw ∈ b.field :: b.paths.raws, TidyText raw
  distinct : (b.paths.raws.map Pattern.parse).Nodup

theorem lintPaths_eq_nil_iff {place : Nat → String} {j : Nat} {seen : List Pattern} {raws : List String} :
    lintPaths place j seen raws = [] ↔
      (∀ raw ∈ raws, TidyText raw ∧ Pattern.parse raw ∉ seen) ∧ (raws.map Pattern.parse).Nodup := by
  induction raws generalizing j seen with
  | nil => simp [lintPaths]
  | cons raw rest ih =>
    have hrepeated : (if seen.contains (Pattern.parse raw) then
        [Finding.repeatedAlternative (Pattern.parse raw)] else []) = [] ↔ Pattern.parse raw ∉ seen := by
      simp
    rw [lintPaths, List.append_eq_nil_iff, ih, List.map_eq_nil_iff, List.append_eq_nil_iff,
      textFindings_eq_nil_iff, hrepeated, List.map_cons, List.nodup_cons, List.forall_mem_cons]
    simp only [List.mem_cons, not_or, List.mem_map, not_exists, not_and]
    constructor
    · rintro ⟨hraw, hrest, hnodup⟩
      exact ⟨⟨hraw, fun x hx => ⟨(hrest x hx).1, (hrest x hx).2.2⟩⟩, fun x hx => (hrest x hx).2.1, hnodup⟩
    · rintro ⟨⟨hraw, hrest⟩, hne, hnodup⟩
      exact ⟨hraw, fun x hx => ⟨(hrest x hx).1, hne x hx, (hrest x hx).2⟩, hnodup⟩

theorem Binding.lint_eq_nil_iff {b : Binding} {i : Nat} : b.lint i = [] ↔ b.Tidy := by
  have hmissing : (if b.paths.raws = [] then [Finding.noPatterns.warningAt (pathsPlace i)] else []) = [] ↔
      b.paths.raws ≠ [] := by
    simp
  rw [lint, List.append_eq_nil_iff, List.append_eq_nil_iff, List.map_eq_nil_iff, textFindings_eq_nil_iff,
    hmissing, lintPaths_eq_nil_iff]
  constructor
  · rintro ⟨⟨hfield, hsome⟩, htexts, hdistinct⟩
    exact ⟨hsome, List.forall_mem_cons.mpr ⟨hfield, fun raw hraw => (htexts raw hraw).1⟩, hdistinct⟩
  · rintro ⟨hsome, htexts, hdistinct⟩
    obtain ⟨hfield, htexts⟩ := List.forall_mem_cons.mp htexts
    exact ⟨⟨hfield, hsome⟩, fun raw hraw => ⟨htexts raw hraw, List.not_mem_nil⟩, hdistinct⟩

theorem RuleSet.lint_eq_nil_iff {rules : RuleSet} :
    rules.lint = [] ↔ ∀ b ∈ rules.references, b.Tidy := by
  rw [lint, List.flatMap_eq_nil_iff]
  simp only [Binding.lint_eq_nil_iff]
  constructor
  · intro h b hb
    obtain ⟨i, hi⟩ := List.mem_iff_getElem?.mp hb
    exact h (b, i) (List.mk_mem_zipIdx_iff_getElem?.mpr hi)
  · exact fun h r hr => h r.1 (List.fst_mem_of_mem_zipIdx hr)

/-! ## Skipped bindings -/

/-- A binding is passed over: its values are not looked at, and the only event says so. -/
def Binding.IsSkipped (b : Binding) (target : Value) (context? : Option Context) : Prop :=
  b.validate target context? = ⟨context?, [], 0, [.bindingSkipped b.field]⟩

theorem Binding.isSkipped_iff {b : Binding} {target : Value} {context? : Option Context} :
    b.IsSkipped target context? ↔ b.rule? = none := by
  rw [IsSkipped, validate]
  constructor
  · intro h
    cases hrule : b.rule? with
    | none => rfl
    | some rule =>
      have hall : rule.validateAll (b.fieldPattern.locate target) context? =
          ⟨context?, [], 0, [.bindingSkipped b.field]⟩ := by rwa [hrule] at h
      have hnothing : b.fieldPattern.locate target = [] := by
        rw [← List.length_eq_zero_iff, ← rule.checked_validateAll _ context?, hall]
      -- a rule without a value to look at has no events
      rw [hnothing] at hall
      cases congrArg Progress.events hall
  · intro h
    rw [h]

namespace RuleSet

variable (rules : RuleSet)

/-- The bindings with a warning about missing patterns are those without reference paths. -/
theorem skippedFields_eq_reported :
    rules.skippedFields =
      (rules.references.zipIdx.filter fun r => rules.countAt "W-005" (pathsPlace r.2) = 1).map
        fun r => r.1.field := by
  have hreported : ∀ r ∈ rules.references.zipIdx,
      decide (rules.countAt "W-005" (pathsPlace r.2) = 1) = decide (r.1.paths.raws = []) := by
    intro r hr
    rw [countAt_pathsPlace (List.mk_mem_zipIdx_iff_getElem?.mp hr), decide_eq_decide,
      ← Binding.rule?_eq_none_iff]
    simp
  have hfields : (rules.references.zipIdx.filter fun r => r.1.paths.raws = []).map (fun r => r.1.field) =
      ((rules.references.zipIdx.map Prod.fst).filter fun b => b.paths.raws = []).map (·.field) := by
    rw [List.filter_map, List.map_map]
    rfl
  rw [List.filter_congr hreported, skippedFields, hfields, List.zipIdx_map_fst]

/-- Lint is silent exactly about the rule sets whose bindings all have reference paths, which are different
patterns, and whose texts are written as their patterns are, with keys of visible ASCII characters other
than brackets. Each text of a rule set has one warning for every key segment with a bracket, one for every
key segment with another character, and one if it is not written as its pattern is. Missing reference paths
are reported for exactly the bindings that make no rule, and these are the bindings that validations skip,
whatever they find and with whatever context. -/
theorem lint_warns_where_due :
    (rules.lint = [] ↔ ∀ b ∈ rules.references, b.Tidy) ∧
    (∀ place raw, rules.TextAt place raw →
      rules.countAt "W-001" place =
        (Pattern.parse raw).keys.countP (fun key => '[' ∈ key.toList ∨ ']' ∈ key.toList) ∧
      rules.countAt "W-002" place = (if (Pattern.parse raw).text = raw then 0 else 1) ∧
      rules.countAt "W-003" place =
        (Pattern.parse raw).keys.countP fun key =>
          key.toList.any fun c => ¬ (0x21 ≤ c.toNat ∧ c.toNat ≤ 0x7E)) ∧
    (∀ i b, rules.references[i]? = some b →
      rules.countAt "W-005" (pathsPlace i) = (if b.rule? = none then 1 else 0) ∧
      ∀ target context?, b.IsSkipped target context? ↔ b.rule? = none) ∧
    ∀ target context?, (rules.validate target context?).events.filterMap Event.skipped? =
      (rules.references.zipIdx.filter fun r => rules.countAt "W-005" (pathsPlace r.2) = 1).map
        fun r => r.1.field := by
  refine ⟨lint_eq_nil_iff, fun place raw h => ⟨h.countAt_bracketInKey, h.countAt_straySeparators,
    h.countAt_unusualCharacters⟩, fun i b hb => ⟨countAt_pathsPlace hb, fun target context? =>
    Binding.isSkipped_iff⟩, fun target context? => ?_⟩
  rw [rules.filterMap_skipped_events target context?, skippedFields_eq_reported]

/-- A field with stray dots, a bracket and a blank, a reference path with two brackets and a letter beyond
ASCII, and a binding without reference paths, which a validation skips. -/
theorem warnings_about_cars_and_seats :
    let cars : Binding := ⟨".cars[0]..b c.[]", .string, .alternatives ["m[x].é.[k]", "makes.[]"]⟩
    let seats : Binding := ⟨"seats", .number, .alternatives []⟩
    let rules : RuleSet := ⟨[cars, seats]⟩
    rules.TextAt "references[0].field" cars.field ∧ rules.TextAt "references[0].fk[0]" "m[x].é.[k]" ∧
      rules.references[1]? = some seats ∧ rules.lint ≠ [] ∧
      rules.countAt "W-001" "references[0].field" = 1 ∧
      rules.countAt "W-002" "references[0].field" = 1 ∧
      rules.countAt "W-003" "references[0].field" = 1 ∧
      rules.countAt "W-001" "references[0].fk[0]" = 2 ∧
      rules.countAt "W-002" "references[0].fk[0]" = 0 ∧
      rules.countAt "W-003" "references[0].fk[0]" = 1 ∧
      rules.countAt "W-005" "references[1].fk" = 1 ∧ seats.IsSkipped (.ofNat 4) none ∧
      (rules.validate (.ofNat 4) none).events.filterMap Event.skipped? = ["seats"] := by
  intro cars seats rules
  obtain ⟨hsilent, htexts, hbindings, hevents⟩ := lint_warns_where_due rules
  have hcars : rules.references[0]? = some cars := rfl
  have hseats : rules.references[1]? = some seats := rfl
  have hfield : rules.TextAt "references[0].field" cars.field := by
    rw [show "references[0].field" = fieldPlace 0 by decide]
    exact .field hcars
  have hpath : rules.TextAt "references[0].fk[0]" "m[x].é.[k]" := by
    rw [show "references[0].fk[0]" = pathPlace cars.paths 0 0 by decide]
    exact .path hcars rfl
  obtain ⟨hbrackets, hdots, hcharacters⟩ := htexts _ _ hfield
  obtain ⟨hbrackets', hdots', hcharacters'⟩ := htexts _ _ hpath
  obtain ⟨hmissing, hskipped⟩ := hbindings 1 seats hseats
  rw [show pathsPlace 1 = "references[1].fk" by decide, if_pos (by rfl)] at hmissing
  have hwarned : rules.lint ≠ [] := by
    intro h
    exact (hsilent.mp h seats (List.mem_of_getElem? hseats)).some_paths rfl
  refine ⟨hfield, hpath, hseats, hwarned, ?_, ?_, ?_, ?_, ?_, ?_, hmissing, (hskipped _ _).mpr (by rfl), ?_⟩
  · rw [hbrackets]
    decide
  · rw [hdots]
    decide
  · rw [hcharacters]
    decide
  · rw [hbrackets']
    decide
  · rw [hdots']
    decide
  · rw [hcharacters']
    decide
  · rw [hevents, ← rules.skippedFields_eq_reported]
    rfl

end RuleSet

end ForeignKey
