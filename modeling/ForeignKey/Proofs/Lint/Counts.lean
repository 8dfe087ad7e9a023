import ForeignKey.Proofs.Lint.Places
import ForeignKey.Proofs.Pattern.Reading
import ForeignKey.Proofs.Validation

/-!
# How often lint warns

The place of a warning tells the text that it is about, so the warnings at a place are counted in the
findings of that one text: one for every key with a bracket, one for every key with an unusual character,
and one if the text has stray separators, that is if it is not written as its pattern is. Missing reference
paths have a place of their own.
-/

namespace ForeignKey

/-! ## Warnings at one place -/

/-- Whether a diagnostic is about a place. -/
def Diagnostic.isAt (place : String) (d : Diagnostic) : Bool := d.path? = some place

theorem filter_isAt_warnings (fs : List Finding) (place place' : String) :
    (fs.map (Finding.warningAt place')).filter (Diagnostic.isAt place) =
      if place' = place then fs.map (Finding.warningAt place) else [] := by
  split
  · next h =>
    subst h
    rw [List.filter_eq_self, List.forall_mem_map]
    exact fun f _ => decide_eq_true rfl
  · next h =>
    rw [List.filter_eq_nil_iff, List.forall_mem_map]
    intro f _ hat
    exact h (Option.some.inj (of_decide_eq_true hat))

/-- Where only one position contributes, its contribution is all there is. -/
theorem flatMap_zipIdx_of_only {α β : Type} {l : List α} {i : Nat} {a : α} (f : α × Nat → List β)
    (ha : l[i]? = some a) (hothers : ∀ j b, l[j]? = some b → j ≠ i → f (b, j) = []) :
    l.zipIdx.flatMap f = f (a, i) := by
  induction l generalizing i f with
  | nil => cases ha
  | cons x l ih =>
    rw [List.zipIdx_cons, List.zipIdx_succ, List.flatMap_cons, List.flatMap_map]
    cases i with
    | zero =>
      obtain rfl : x = a := Option.some.inj ha
      have hrest : ∀ r ∈ l.zipIdx, f (r.1, r.2 + 1) = [] := by
        intro r hr
        have hget : l[r.2]? = some r.1 := List.mk_mem_zipIdx_iff_getElem?.mp hr
        exact hothers (r.2 + 1) r.1 hget (Nat.succ_ne_zero _)
      rw [List.flatMap_eq_nil_iff.mpr hrest, List.append_nil]
    | succ i =>
      rw [hothers 0 x rfl (Nat.succ_ne_zero i).symm, List.nil_append]
      exact ih (fun r => f (r.1, r.2 + 1)) ha fun j b hb hj =>
        hothers (j + 1) b hb fun heq => hj (Nat.succ.inj heq)

/-! ## Places of one binding -/

theorem delimited_fieldStep : Location.Delimited [.key "field"] := by
  intro name hname
  obtain rfl : name = "field" := Step.key.inj (List.mem_singleton.mp hname)
  refine ⟨by decide, ?_⟩
  simp [Location.BeginsStep]

theorem fieldPlace_eq_text (i : Nat) : fieldPlace i = (bindingLocation i [.key "field"]).text := by
  apply String.toList_injective
  simp [fieldPlace, bindingLocation, Location.text, Location.tailText]

theorem pathPlace_ne_fieldPlace (paths : ReferencePaths) (i j : Nat) :
    pathPlace paths i j ≠ fieldPlace i := by
  rw [pathPlace_eq_text, fieldPlace_eq_text]
  intro h
  have hsteps := (text_bindingLocation_inj (delimited_pathSteps paths j) delimited_fieldStep h).2
  cases paths <;> simp [pathSteps] at hsteps

theorem pathsPlace_eq_text (i : Nat) : pathsPlace i = (bindingLocation i [.key "fk"]).text :=
  pathPlace_eq_text (.single "") i 0

theorem pathsPlace_ne_fieldPlace (i : Nat) : pathsPlace i ≠ fieldPlace i :=
  pathPlace_ne_fieldPlace (.single "") i 0

/-- A reference path has a place of its own. -/
theorem ReferencePaths.eq_of_pathPlace_eq {paths : ReferencePaths} {i j k : Nat} {raw raw' : String}
    (hj : paths.raws[j]? = some raw) (hk : paths.raws[k]? = some raw')
    (h : pathPlace paths i j = pathPlace paths i k) : j = k := by
  have hsteps := (pathPlace_inj h).2
  cases paths with
  | single raw =>
    have honly {n : Nat} {raw' : String} (hn : [raw][n]? = some raw') : n = 0 :=
      Nat.lt_one_iff.mp (List.getElem?_eq_some_iff.mp hn).1
    rw [honly hj, honly hk]
  | alternatives raws => simpa [pathSteps] using hsteps

namespace Binding

variable {b : Binding} {i j : Nat} {raw : String}

/-- The warnings of a binding are at places below it. -/
theorem exists_location_of_mem_lint {d : Diagnostic} (h : d ∈ b.lint i) :
    ∃ steps, Location.Delimited steps ∧ d.path? = some (bindingLocation i steps).text := by
  rcases mem_lint_iff.mp h with ⟨f, -, rfl⟩ | ⟨-, rfl⟩ | ⟨j, raw, -, f, -, rfl⟩
  · exact ⟨_, delimited_fieldStep, congrArg some (fieldPlace_eq_text i)⟩
  · exact ⟨_, delimited_pathSteps (.single "") 0, congrArg some (pathsPlace_eq_text i)⟩
  · exact ⟨_, delimited_pathSteps b.paths j, congrArg some (pathPlace_eq_text b.paths i j)⟩

/-- The warnings for reference paths, each at its place. -/
theorem lintPaths_eq (b : Binding) (i : Nat) :
    lintPaths (pathPlace b.paths i) 0 [] b.paths.raws =
      b.paths.raws.zipIdx.flatMap fun r =>
        (pathFindings ((b.paths.raws.take r.2).map Pattern.parse) r.1).map
          (Finding.warningAt (pathPlace b.paths i r.2)) :=
  lintPaths_eq_flatMap (pathPlace b.paths i) [] b.paths.raws [] fun _ => Iff.rfl

theorem filter_lint_fieldPlace (b : Binding) (i : Nat) :
    (b.lint i).filter (Diagnostic.isAt (fieldPlace i)) =
      (textFindings b.field).map (Finding.warningAt (fieldPlace i)) := by
  have hmissing : (if b.paths.raws = [] then [Finding.noPatterns.warningAt (pathsPlace i)] else []).filter
      (Diagnostic.isAt (fieldPlace i)) = [] := by
    split
    · have hwarning := filter_isAt_warnings [.noPatterns] (fieldPlace i) (pathsPlace i)
      rwa [if_neg (pathsPlace_ne_fieldPlace i)] at hwarning
    · rfl
  have hpaths : (lintPaths (pathPlace b.paths i) 0 [] b.paths.raws).filter
      (Diagnostic.isAt (fieldPlace i)) = [] := by
    rw [lintPaths_eq, List.filter_flatMap, List.flatMap_eq_nil_iff]
    intro r _
    rw [filter_isAt_warnings, if_neg (pathPlace_ne_fieldPlace b.paths i r.2)]
  rw [lint, List.filter_append, List.filter_append, hmissing, hpaths, filter_isAt_warnings, if_pos rfl,
    List.append_nil, List.append_nil]

theorem filter_lint_pathPlace (hraw : b.paths.raws[j]? = some raw) :
    (b.lint i).filter (Diagnostic.isAt (pathPlace b.paths i j)) =
      (pathFindings ((b.paths.raws.take j).map Pattern.parse) raw).map
        (Finding.warningAt (pathPlace b.paths i j)) := by
  have hraws : b.paths.raws ≠ [] := List.ne_nil_of_mem (List.mem_of_getElem? hraw)
  have hfield := (pathPlace_ne_fieldPlace b.paths i j).symm
  rw [lint, if_neg hraws, List.append_nil, List.filter_append, filter_isAt_warnings, if_neg hfield,
    List.nil_append, lintPaths_eq, List.filter_flatMap, flatMap_zipIdx_of_only _ hraw,
    filter_isAt_warnings, if_pos rfl]
  intro k raw' hraw' hk
  rw [filter_isAt_warnings, if_neg fun h => hk (ReferencePaths.eq_of_pathPlace_eq hraw' hraw h)]

end Binding

/-! ## Numbers of warnings -/

namespace RuleSet

variable {rules : RuleSet} {i j : Nat} {b : Binding} {raw place code : String}

/-- The warnings at a place below a binding are warnings of that binding. -/
theorem filter_lint_bindingLocation (hb : rules.references[i]? = some b) {steps : List Step}
    (hsteps : Location.Delimited steps) :
    rules.lint.filter (Diagnostic.isAt (bindingLocation i steps).text) =
      (b.lint i).filter (Diagnostic.isAt (bindingLocation i steps).text) := by
  rw [lint, List.filter_flatMap]
  refine flatMap_zipIdx_of_only _ hb fun k b' _ hk => List.filter_eq_nil_iff.mpr fun d hd hat => hk ?_
  obtain ⟨steps', hsteps', hpath⟩ := Binding.exists_location_of_mem_lint hd
  rw [Diagnostic.isAt, hpath, decide_eq_true_eq, Option.some.injEq] at hat
  exact (text_bindingLocation_inj hsteps' hsteps hat).1

/-- How many warnings with a code are at a place. -/
def countAt (rules : RuleSet) (code place : String) : Nat :=
  rules.lint.countP fun d => d.code = code ∧ d.path? = some place

theorem countAt_eq_countP_filter :
    rules.countAt code place =
      (rules.lint.filter (Diagnostic.isAt place)).countP fun d => d.code = code := by
  rw [countAt, List.countP_filter]
  congr 1
  funext d
  exact Bool.decide_and _ _

theorem countP_warnings (fs : List Finding) (place code : String) :
    (fs.map (Finding.warningAt place)).countP (fun d => d.code = code) =
      fs.countP fun f => f.code = code :=
  List.countP_map

/-- Where a text of a rule set stands, and the text. -/
inductive TextAt (rules : RuleSet) : String → String → Prop where
  /-- The field of a binding. -/
  | field {i : Nat} {b : Binding} (hb : rules.references[i]? = some b) :
    TextAt rules (fieldPlace i) b.field
  /-- A reference path of a binding. -/
  | path {i j : Nat} {b : Binding} {raw : String} (hb : rules.references[i]? = some b)
    (hraw : b.paths.raws[j]? = some raw) : TextAt rules (pathPlace b.paths i j) raw

/-- Repetitions apart, the warnings at a text are counted in its findings. -/
theorem TextAt.countAt_eq (h : rules.TextAt place raw) (hcode : code ≠ "W-004") :
    rules.countAt code place = (textFindings raw).countP fun f => f.code = code := by
  rw [countAt_eq_countP_filter]
  cases h with
  | @field i b hb =>
    have hfilter := filter_lint_bindingLocation hb delimited_fieldStep
    rw [← fieldPlace_eq_text] at hfilter
    rw [hfilter, b.filter_lint_fieldPlace, countP_warnings]
  | @path i j b raw hb hraw =>
    have hfilter := filter_lint_bindingLocation hb (delimited_pathSteps b.paths j)
    rw [← pathPlace_eq_text] at hfilter
    have hrepeated (p : Pattern) (earlier : List Pattern) :
        (if p ∈ earlier then [Finding.repeatedAlternative p] else []).countP
          (fun f => f.code = code) = 0 := by
      split <;> simp [Finding.code, hcode.symm]
    rw [hfilter, Binding.filter_lint_pathPlace hraw, countP_warnings, pathFindings, List.countP_append,
      hrepeated, Nat.add_zero]

end RuleSet

/-! ## The findings of one text -/

theorem holdsBracket_iff {key : String} :
    holdsBracket key = true ↔ '[' ∈ key.toList ∨ ']' ∈ key.toList := by
  simp [holdsBracket, List.any_eq_true, and_or_left, exists_or]

theorem isPlainKey_iff {key : String} :
    isPlainKey key = true ↔ ∀ c ∈ key.toList, 0x21 ≤ c.toNat ∧ c.toNat ≤ 0x7E := by
  simp [isPlainKey, List.all_eq_true, Char.le_def, UInt32.le_iff_toNat_le]

/-- A text is written as its pattern is, unless it has stray separators. -/
theorem hasStraySeparators_eq_false_iff {raw : String} :
    hasStraySeparators raw = false ↔ (Pattern.parse raw).text = raw := by
  rw [Pattern.text_parse_eq_iff, hasStraySeparators, Bool.and_eq_false_iff, ← List.contains_iff_mem]
  simp [or_iff_not_imp_left]

theorem countP_map_code (make : String → Finding) (c : String) (hmake : ∀ key, (make key).code = c)
    (keys : List String) (code : String) :
    (keys.map make).countP (fun f => f.code = code) = if c = code then keys.length else 0 := by
  rw [List.countP_map, Function.comp_def]
  simp only [hmake]
  split
  · next h => simp [h]
  · next h => simp [h]

/-- A text has a finding for every key that gives reason for it, and one for its separators. -/
theorem countP_textFindings (raw code : String) :
    (textFindings raw).countP (fun f => f.code = code) =
      (if "W-001" = code then (Pattern.parse raw).keys.countP holdsBracket else 0) +
      (if "W-002" = code ∧ hasStraySeparators raw = true then 1 else 0) +
      (if "W-003" = code then (Pattern.parse raw).keys.countP fun key => !isPlainKey key else 0) := by
  have hstray : (if hasStraySeparators raw then [Finding.straySeparators raw] else []).countP
      (fun f => f.code = code) = if "W-002" = code ∧ hasStraySeparators raw = true then 1 else 0 := by
    cases hasStraySeparators raw with
    | false => simp
    | true => by_cases hcode : "W-002" = code <;> simp [Finding.code, hcode]
  rw [textFindings, List.countP_append, List.countP_append, hstray,
    countP_map_code .bracketInKey "W-001" fun _ => rfl,
    countP_map_code .unusualCharacters "W-003" fun _ => rfl, ← List.countP_eq_length_filter,
    ← List.countP_eq_length_filter]

namespace RuleSet

variable {rules : RuleSet} {place raw : String}

theorem TextAt.countAt_bracketInKey (h : rules.TextAt place raw) :
    rules.countAt "W-001" place =
      (Pattern.parse raw).keys.countP fun key => '[' ∈ key.toList ∨ ']' ∈ key.toList := by
  have hkeys : ∀ key ∈ (Pattern.parse raw).keys, holdsBracket key = true ↔
      decide ('[' ∈ key.toList ∨ ']' ∈ key.toList) = true :=
    fun key _ => holdsBracket_iff.trans decide_eq_true_iff.symm
  rw [h.countAt_eq (by decide), countP_textFindings, ← List.countP_congr hkeys]
  simp

theorem TextAt.countAt_straySeparators (h : rules.TextAt place raw) :
    rules.countAt "W-002" place = if (Pattern.parse raw).text = raw then 0 else 1 := by
  rw [h.countAt_eq (by decide), countP_textFindings]
  simp only [← hasStraySeparators_eq_false_iff]
  cases hasStraySeparators raw <;> rfl

theorem TextAt.countAt_unusualCharacters (h : rules.TextAt place raw) :
    rules.countAt "W-003" place =
      (Pattern.parse raw).keys.countP fun key =>
        key.toList.any fun c => ¬ (0x21 ≤ c.toNat ∧ c.toNat ≤ 0x7E) := by
  have hkeys : ∀ key ∈ (Pattern.parse raw).keys, (!isPlainKey key) = true ↔
      (key.toList.any fun c => ¬ (0x21 ≤ c.toNat ∧ c.toNat ≤ 0x7E)) = true := by
    intro key _
    rw [Bool.not_eq_true', ← Bool.not_eq_true, isPlainKey_iff, List.any_eq_true]
    simp only [not_forall, exists_prop, decide_eq_true_iff]
  rw [h.countAt_eq (by decide), countP_textFindings, ← List.countP_congr hkeys]
  simp

end RuleSet

/-! ## Missing patterns -/

/-- A binding without reference paths is warned about once, at the place where they are missing. -/
theorem Binding.countP_noPatterns (b : Binding) (i : Nat) :
    ((b.lint i).filter (Diagnostic.isAt (pathsPlace i))).countP (fun d => d.code = "W-005") =
      if b.rule? = none then 1 else 0 := by
  have hswap : ((b.lint i).filter (Diagnostic.isAt (pathsPlace i))).countP (fun d => d.code = "W-005") =
      ((b.lint i).filter (fun d => d.code = "W-005")).countP (Diagnostic.isAt (pathsPlace i)) := by
    simp only [List.countP_filter, Bool.and_comm]
  rw [hswap, b.filter_noPatterns]
  by_cases hraws : b.paths.raws = []
  · rw [if_pos hraws, if_pos (rule?_eq_none_iff.mpr hraws)]
    exact List.countP_cons_of_pos (decide_eq_true rfl)
  · rw [if_neg hraws, if_neg fun h => hraws (rule?_eq_none_iff.mp h)]
    rfl

theorem RuleSet.countAt_pathsPlace {rules : RuleSet} {i : Nat} {b : Binding}
    (hb : rules.references[i]? = some b) :
    rules.countAt "W-005" (pathsPlace i) = if b.rule? = none then 1 else 0 := by
  have hfilter := filter_lint_bindingLocation hb (delimited_pathSteps (.single "") 0)
  rw [← pathPlace_eq_text] at hfilter
  rw [countAt_eq_countP_filter, show pathsPlace i = pathPlace (.single "") i 0 from rfl, hfilter]
  exact b.countP_noPatterns i

end ForeignKey
