import ForeignKey.Lint
import ForeignKey.Proofs.RuleSet.Normal

/-!
# What lint finds

The findings of a text are about its key segments or about its separators. Putting a rule set into normal
form removes those about separators and leaves all others, at their places; and a binding without patterns
is the only one that is blamed for it.
-/

namespace ForeignKey

/-! ## One text -/

/-- A text is blamed for keys that hold a bracket, for its separators and for keys with unusual
characters. -/
theorem mem_textFindings_iff {raw : String} {f : Finding} :
    f ∈ textFindings raw ↔
      (∃ key ∈ (Pattern.parse raw).keys, holdsBracket key = true ∧ f = .bracketInKey key) ∨
      (hasStraySeparators raw = true ∧ f = .straySeparators raw) ∨
      ∃ key ∈ (Pattern.parse raw).keys, isPlainKey key = false ∧ f = .unusualCharacters key := by
  rw [textFindings, List.mem_append, List.mem_append, or_assoc, List.mem_ite_nil_right,
    List.mem_singleton]
  simp only [List.mem_map, List.mem_filter, and_assoc, Bool.not_eq_true', @eq_comm _ f]

theorem bracketInKey_mem_textFindings_iff {raw key : String} :
    .bracketInKey key ∈ textFindings raw ↔ key ∈ (Pattern.parse raw).keys ∧ holdsBracket key = true := by
  rw [mem_textFindings_iff]
  constructor
  · rintro (⟨_, hkey, hholds, heq⟩ | ⟨-, heq⟩ | ⟨_, -, -, heq⟩)
    · cases heq
      exact ⟨hkey, hholds⟩
    · cases heq
    · cases heq
  · exact fun ⟨hkey, hholds⟩ => .inl ⟨key, hkey, hholds, rfl⟩

theorem Finding.code_eq_bracketInKey_iff {f : Finding} :
    f.code = "W-001" ↔ ∃ key, f = .bracketInKey key := by
  cases f <;> simp [code]

/-- A written pattern is not blamed for its separators. -/
theorem hasStraySeparators_text (p : Pattern) : hasStraySeparators p.text = false := by
  by_cases h : p.segments = []
  · rw [Pattern.text_eq_empty h]
    rfl
  · simp [hasStraySeparators, Pattern.nil_not_mem_chunks_text h]

/-! ## Warnings about separators -/

/-- Whether a diagnostic leaves separators alone. -/
def Diagnostic.sparesSeparators (d : Diagnostic) : Bool := d.code ≠ "W-002"

/-- Whether a finding leaves separators alone. -/
def Finding.sparesSeparators : Finding → Bool
  | .straySeparators _ => false
  | _ => true

theorem Finding.sparesSeparators_warningAt (f : Finding) (place : String) :
    (f.warningAt place).sparesSeparators = f.sparesSeparators := by
  cases f <;> rfl

theorem filter_sparesSeparators_warnings (fs : List Finding) (place : String) :
    (fs.map (Finding.warningAt place)).filter Diagnostic.sparesSeparators =
      (fs.filter Finding.sparesSeparators).map (Finding.warningAt place) := by
  rw [List.filter_map]
  congr 1
  exact List.filter_congr fun f _ => f.sparesSeparators_warningAt place

/-- The findings of a text in normal form are those of the text, stray separators left out. -/
theorem textFindings_normalText (raw : String) :
    textFindings (Pattern.normalText raw) = (textFindings raw).filter Finding.sparesSeparators := by
  have hkept (make : String → Finding) (hmake : ∀ key, (make key).sparesSeparators = true)
      (keys : List String) : (keys.map make).filter Finding.sparesSeparators = keys.map make := by
    rw [List.filter_eq_self]
    simp [hmake]
  have hstray : (if hasStraySeparators raw then [Finding.straySeparators raw] else []).filter
      Finding.sparesSeparators = [] := by
    split <;> rfl
  rw [textFindings, textFindings, Pattern.parse_normalText]
  rw [show hasStraySeparators (Pattern.normalText raw) = false from hasStraySeparators_text _]
  simp only [List.filter_append, hkept .bracketInKey fun _ => rfl,
    hkept .unusualCharacters fun _ => rfl, hstray, Bool.false_eq_true, if_false]

/-- Alternatives in normal form repeat each other where the given ones do. -/
theorem lintPaths_normalText (place : Nat → String) (j : Nat) (seen : List Pattern)
    (raws : List String) :
    lintPaths place j seen (raws.map Pattern.normalText) =
      (lintPaths place j seen raws).filter Diagnostic.sparesSeparators := by
  induction raws generalizing j seen with
  | nil => rfl
  | cons raw rest ih =>
    -- what was seen are patterns, and they are the same on both sides
    have hrepeated : (if seen.contains (Pattern.parse raw) then
          [Finding.repeatedAlternative (Pattern.parse raw)] else []).filter Finding.sparesSeparators =
        if seen.contains (Pattern.parse raw) then
          [Finding.repeatedAlternative (Pattern.parse raw)] else [] := by
      split <;> rfl
    rw [List.map_cons, lintPaths, lintPaths]
    simp only [Pattern.parse_normalText, ih, List.filter_append, filter_sparesSeparators_warnings,
      textFindings_normalText, hrepeated]

theorem Binding.lint_normalized (b : Binding) (i : Nat) :
    b.normalized.lint i = (b.lint i).filter Diagnostic.sparesSeparators := by
  have hplace : pathPlace b.paths.normalized i = pathPlace b.paths i := by
    cases b.paths <;> rfl
  have hnone : (if b.paths.raws = [] then [Finding.noPatterns.warningAt (pathsPlace i)] else []).filter
        Diagnostic.sparesSeparators =
      if b.paths.raws = [] then [Finding.noPatterns.warningAt (pathsPlace i)] else [] := by
    split <;> rfl
  have hraws : b.normalized.paths.raws = b.paths.raws.map Pattern.normalText :=
    b.paths.raws_normalized
  rw [lint, lint, hraws, List.filter_append, List.filter_append, filter_sparesSeparators_warnings,
    ← textFindings_normalText, hnone, ← lintPaths_normalText]
  simp only [List.map_eq_nil_iff]
  show _ ++ _ ++ lintPaths (pathPlace b.paths.normalized i) 0 [] _ = _
  rw [hplace]
  rfl

/-- The warnings of a rule set in normal form are those of the rule set, stray separators left out. -/
theorem RuleSet.lint_normalized (rules : RuleSet) :
    rules.normalized.lint = rules.lint.filter Diagnostic.sparesSeparators := by
  have hreferences : rules.normalized.references = rules.references.map Binding.normalized := rfl
  rw [lint, lint, List.filter_flatMap, hreferences, List.zipIdx_map, List.flatMap_map]
  simp only [Prod.map, id_eq, Binding.lint_normalized]

/-! ## Bindings without patterns -/

theorem noPatterns_not_mem_textFindings (raw : String) : .noPatterns ∉ textFindings raw := by
  intro h
  rcases mem_textFindings_iff.mp h with ⟨_, -, -, h⟩ | ⟨-, h⟩ | ⟨_, -, -, h⟩ <;> cases h

/-- Alternatives are not blamed for being none. -/
theorem mem_lintPaths_cases {place : Nat → String} {j : Nat} {seen : List Pattern}
    {raws : List String} {d : Diagnostic} (h : d ∈ lintPaths place j seen raws) :
    ∃ (i : Nat) (f : Finding), d = f.warningAt (place i) ∧ f ≠ .noPatterns := by
  induction raws generalizing j seen with
  | nil => cases h
  | cons raw rest ih =>
    rw [lintPaths, List.mem_append, List.mem_map] at h
    rcases h with ⟨f, hf, rfl⟩ | h
    · refine ⟨j, f, rfl, ?_⟩
      rintro rfl
      rcases List.mem_append.mp hf with hf | hf
      · exact noPatterns_not_mem_textFindings raw hf
      · split at hf
        · cases List.mem_singleton.mp hf
        · cases hf
    · exact ih h

theorem Finding.code_eq_noPatterns_iff {f : Finding} : f.code = "W-005" ↔ f = .noPatterns := by
  cases f <;> simp [code]

/-- A binding has at most one warning about missing patterns, and it says where they are missing. -/
theorem Binding.filter_noPatterns (b : Binding) (i : Nat) :
    (b.lint i).filter (fun d => d.code = "W-005") =
      if b.paths.raws = [] then [Finding.noPatterns.warningAt (pathsPlace i)] else [] := by
  have hfield : ((textFindings b.field).map (Finding.warningAt (fieldPlace i))).filter
      (fun d => d.code = "W-005") = [] := by
    rw [List.filter_eq_nil_iff, List.forall_mem_map]
    intro f hf hcode
    obtain rfl := Finding.code_eq_noPatterns_iff.mp (of_decide_eq_true hcode)
    exact noPatterns_not_mem_textFindings b.field hf
  have hpaths : (lintPaths (pathPlace b.paths i) 0 [] b.paths.raws).filter
      (fun d => d.code = "W-005") = [] := by
    rw [List.filter_eq_nil_iff]
    intro d hd hcode
    obtain ⟨_, f, rfl, hf⟩ := mem_lintPaths_cases hd
    exact hf (Finding.code_eq_noPatterns_iff.mp (of_decide_eq_true hcode))
  rw [lint, List.filter_append, List.filter_append, hfield, hpaths, List.nil_append, List.append_nil]
  split <;> rfl

theorem Binding.exists_noPatterns_iff (b : Binding) (i : Nat) :
    (∃ d ∈ b.lint i, d.code = "W-005") ↔ b.paths.raws = [] := by
  have hfilter := b.filter_noPatterns i
  constructor
  · rintro ⟨d, hd, hcode⟩
    by_contra hraws
    rw [if_neg hraws, List.filter_eq_nil_iff] at hfilter
    exact hfilter d hd (decide_eq_true hcode)
  · intro hraws
    rw [if_pos hraws] at hfilter
    have hmem := List.mem_of_mem_filter (hfilter ▸ List.mem_singleton_self _)
    exact ⟨_, hmem, rfl⟩

/-- Some warning is about missing patterns exactly when some binding has none. -/
theorem RuleSet.exists_noPatterns_iff (rules : RuleSet) :
    (∃ d ∈ rules.lint, d.code = "W-005") ↔ ∃ b ∈ rules.references, b.paths.raws = [] := by
  constructor
  · rintro ⟨d, hd, hcode⟩
    obtain ⟨⟨b, i⟩, hb, hd⟩ := List.mem_flatMap.mp hd
    have hraws : b.paths.raws = [] := (b.exists_noPatterns_iff i).mp ⟨d, hd, hcode⟩
    exact ⟨b, List.fst_mem_of_mem_zipIdx hb, hraws⟩
  · rintro ⟨b, hb, hraws⟩
    obtain ⟨i, hi⟩ := List.mem_iff_getElem?.mp hb
    obtain ⟨d, hd, hcode⟩ := (b.exists_noPatterns_iff i).mpr hraws
    exact ⟨d, List.mem_flatMap.mpr ⟨(b, i), List.mk_mem_zipIdx_iff_getElem?.mpr hi, hd⟩, hcode⟩

end ForeignKey
