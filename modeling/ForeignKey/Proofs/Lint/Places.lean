import Mathlib.Data.List.Nodup
import ForeignKey.Proofs.Location.Text

/-!
# Where lint finds what

The place of a warning is the location of the blamed text in the form of a rule set, so its text tells the
binding and the alternative. The loop over alternatives carries along what it has seen; without the loop,
an alternative is judged by those before it. Main statement: a binding has exactly the warnings of its
texts, each at its own place, so lint reports a repetition where an alternative reads as an earlier one.
-/

namespace ForeignKey

/-! ## Places -/

@[simp] theorem Finding.code_warningAt (f : Finding) (place : String) :
    (f.warningAt place).code = f.code := rfl

@[simp] theorem Finding.path?_warningAt (f : Finding) (place : String) :
    (f.warningAt place).path? = some place := rfl

/-- A location below a binding, in the form of a rule set. -/
def bindingLocation (i : Nat) (steps : List Step) : Location := ⟨.key "references" :: .index i :: steps⟩

/-- The steps from a binding to one of its reference paths. -/
def pathSteps (paths : ReferencePaths) (j : Nat) : List Step :=
  match paths with
  | .single _ => [.key "fk"]
  | .alternatives _ => [.key "fk", .index j]

theorem delimited_bindingLocation {i : Nat} {steps : List Step} (h : Location.Delimited steps) :
    Location.Delimited (bindingLocation i steps).steps := by
  intro name hname
  rcases List.mem_cons.mp hname with hname | hname
  · cases hname
    refine ⟨by decide, ?_⟩
    simp [Location.BeginsStep]
  · exact h name ((List.mem_cons.mp hname).resolve_left nofun)

theorem text_bindingLocation_inj {i j : Nat} {s t : List Step} (hs : Location.Delimited s)
    (ht : Location.Delimited t) (h : (bindingLocation i s).text = (bindingLocation j t).text) :
    i = j ∧ s = t := by
  have hsteps := Location.eq_of_text_eq_of_delimited (delimited_bindingLocation hs)
    (delimited_bindingLocation ht) h
  simpa using hsteps

theorem delimited_pathSteps (paths : ReferencePaths) (j : Nat) :
    Location.Delimited (pathSteps paths j) := by
  intro name hname
  obtain rfl : name = "fk" := by cases paths <;> simpa [pathSteps] using hname
  refine ⟨by decide, ?_⟩
  simp [Location.BeginsStep]

theorem pathPlace_eq_text (paths : ReferencePaths) (i j : Nat) :
    pathPlace paths i j = (bindingLocation i (pathSteps paths j)).text := by
  apply String.toList_injective
  cases paths <;>
    simp [pathPlace, pathsPlace, bindingLocation, pathSteps, Location.text, Location.tailText]

theorem pathPlace_inj {paths paths' : ReferencePaths} {i i' j j' : Nat}
    (h : pathPlace paths i j = pathPlace paths' i' j') :
    i = i' ∧ pathSteps paths j = pathSteps paths' j' := by
  rw [pathPlace_eq_text, pathPlace_eq_text] at h
  exact text_bindingLocation_inj (delimited_pathSteps paths j) (delimited_pathSteps paths' j') h

/-! ## Alternatives -/

/-- The findings for a reference path, by the patterns before it. -/
def pathFindings (earlier : List Pattern) (raw : String) : List Finding :=
  textFindings raw ++
    if Pattern.parse raw ∈ earlier then [.repeatedAlternative (Pattern.parse raw)] else []

/-- What the loop has seen are the patterns of the alternatives that it has passed. -/
theorem lintPaths_eq_flatMap (place : Nat → String) (past rest : List String) (seen : List Pattern)
    (hseen : ∀ p, p ∈ seen ↔ p ∈ past.map Pattern.parse) :
    lintPaths place past.length seen rest =
      (rest.zipIdx past.length).flatMap fun r =>
        (pathFindings (((past ++ rest).take r.2).map Pattern.parse) r.1).map
          (Finding.warningAt (place r.2)) := by
  induction rest generalizing past seen with
  | nil => rfl
  | cons raw rest ih =>
    have hnext : ∀ p, p ∈ Pattern.parse raw :: seen ↔ p ∈ (past ++ [raw]).map Pattern.parse := by
      intro p
      rw [List.mem_cons, hseen, List.map_append, List.mem_append, or_comm]
      exact or_congr_right List.mem_singleton.symm
    have hrest := ih (past ++ [raw]) (Pattern.parse raw :: seen) hnext
    rw [List.length_append, List.length_singleton, List.append_assoc] at hrest
    have hpast : (past ++ raw :: rest).take past.length = past := List.take_left
    rw [lintPaths, hrest, List.zipIdx_cons, List.flatMap_cons, hpast, pathFindings]
    simp only [List.contains_iff_mem, hseen]
    rfl

theorem mem_lintPaths_iff {place : Nat → String} {raws : List String} {d : Diagnostic} :
    d ∈ lintPaths place 0 [] raws ↔
      ∃ j raw, raws[j]? = some raw ∧
        ∃ f ∈ pathFindings ((raws.take j).map Pattern.parse) raw, f.warningAt (place j) = d := by
  have hloop := lintPaths_eq_flatMap place [] raws [] fun _ => Iff.rfl
  rw [show lintPaths place 0 [] raws = _ from hloop, List.mem_flatMap, Prod.exists]
  simp only [List.length_nil, List.mk_mem_zipIdx_iff_getElem?, List.nil_append, List.mem_map]
  exact exists_comm

/-! ## Whole rule sets -/

/-- The warnings of a binding are those of its field, that it has no reference paths, and those of each
reference path. -/
theorem Binding.mem_lint_iff {b : Binding} {i : Nat} {d : Diagnostic} :
    d ∈ b.lint i ↔
      (∃ f ∈ textFindings b.field, f.warningAt (fieldPlace i) = d) ∨
      (b.paths.raws = [] ∧ d = Finding.noPatterns.warningAt (pathsPlace i)) ∨
      ∃ j raw, b.paths.raws[j]? = some raw ∧
        ∃ f ∈ pathFindings ((b.paths.raws.take j).map Pattern.parse) raw,
          f.warningAt (pathPlace b.paths i j) = d := by
  rw [lint, List.mem_append, List.mem_append, or_assoc, mem_lintPaths_iff, List.mem_map,
    List.mem_ite_nil_right, List.mem_singleton]

theorem RuleSet.mem_lint_iff {rules : RuleSet} {d : Diagnostic} :
    d ∈ rules.lint ↔ ∃ (i : Nat) (b : Binding), rules.references[i]? = some b ∧ d ∈ b.lint i := by
  rw [lint, List.mem_flatMap, Prod.exists]
  simp only [List.mk_mem_zipIdx_iff_getElem?]
  exact exists_comm

/-! ## Repeated alternatives -/

theorem Finding.code_eq_repeatedAlternative_iff {f : Finding} :
    f.code = "W-004" ↔ ∃ p, f = .repeatedAlternative p := by
  cases f <;> simp [code]

theorem repeatedAlternative_not_mem_textFindings (raw : String) (p : Pattern) :
    .repeatedAlternative p ∉ textFindings raw := by
  intro h
  rcases mem_textFindings_iff.mp h with ⟨_, -, -, h⟩ | ⟨-, h⟩ | ⟨_, -, -, h⟩ <;> cases h

theorem repeatedAlternative_mem_pathFindings_iff {earlier : List Pattern} {raw : String} {p : Pattern} :
    .repeatedAlternative p ∈ pathFindings earlier raw ↔ p = Pattern.parse raw ∧ p ∈ earlier := by
  rw [pathFindings, List.mem_append, or_iff_right (repeatedAlternative_not_mem_textFindings raw p),
    List.mem_ite_nil_right, List.mem_singleton, Finding.repeatedAlternative.injEq]
  constructor
  · rintro ⟨h, rfl⟩
    exact ⟨rfl, h⟩
  · rintro ⟨rfl, h⟩
    exact ⟨h, rfl⟩

/-- Whether the alternative at an index reads as one before it. -/
def ReferencePaths.Repeats (paths : ReferencePaths) (j : Nat) : Prop :=
  ∃ k < j, ∃ earlier raw, paths.raws[k]? = some earlier ∧ paths.raws[j]? = some raw ∧
    Pattern.parse earlier = Pattern.parse raw

namespace ReferencePaths

variable {paths : ReferencePaths} {j k : Nat}

theorem repeats_iff {raw : String} (hj : paths.raws[j]? = some raw) :
    paths.Repeats j ↔ Pattern.parse raw ∈ (paths.raws.take j).map Pattern.parse := by
  rw [List.mem_map]
  constructor
  · rintro ⟨k, hk, earlier, raw', hearlier, hj', hparse⟩
    obtain rfl := Option.some.inj (hj.symm.trans hj')
    have hmem : (paths.raws.take j)[k]? = some earlier := by
      rw [List.getElem?_take_of_lt hk, hearlier]
    exact ⟨earlier, List.mem_of_getElem? hmem, hparse⟩
  · rintro ⟨earlier, hmem, hparse⟩
    obtain ⟨k, hk⟩ := List.getElem?_of_mem hmem
    rw [List.getElem?_take, Option.ite_none_right_eq_some] at hk
    exact ⟨k, hk.1, earlier, raw, hk.2, hj, hparse⟩

/-- Where all patterns are different, none is repeated. -/
theorem not_repeats_of_nodup (h : (paths.raws.map Pattern.parse).Nodup) (j : Nat) :
    ¬ paths.Repeats j := by
  rintro ⟨k, hk, earlier, raw, hearlier, hj, hparse⟩
  have hlt := (List.getElem?_eq_some_iff.mp hj).1
  refine List.nodup_iff_getElem?_ne_getElem?.mp h k j hk (by rwa [List.length_map]) ?_
  rw [List.getElem?_map, List.getElem?_map, hearlier, hj, Option.map_some, Option.map_some, hparse]

/-- The steps to a reference path tell its index, unless it is the only one. -/
theorem repeats_of_pathSteps_eq (h : paths.Repeats k) (hsteps : pathSteps paths k = pathSteps paths j) :
    paths.Repeats j := by
  cases paths with
  | single raw =>
    have honly : ((single raw).raws.map Pattern.parse).Nodup := List.nodup_singleton _
    exact absurd h (not_repeats_of_nodup honly k)
  | alternatives raws =>
    obtain rfl : k = j := by simpa [pathSteps] using hsteps
    exact h

end ReferencePaths

/-- Warnings about repetitions are at the alternatives that read as one before them. -/
theorem Binding.mem_lint_and_repeated_iff {b : Binding} {i : Nat} {d : Diagnostic} :
    d ∈ b.lint i ∧ d.code = "W-004" ↔
      ∃ j raw, b.paths.raws[j]? = some raw ∧ b.paths.Repeats j ∧
        (Finding.repeatedAlternative (Pattern.parse raw)).warningAt (pathPlace b.paths i j) = d := by
  constructor
  · rintro ⟨hd, hcode⟩
    rcases mem_lint_iff.mp hd with ⟨f, hf, rfl⟩ | ⟨-, rfl⟩ | ⟨j, raw, hraw, f, hf, rfl⟩
    all_goals
      rw [Finding.code_warningAt, Finding.code_eq_repeatedAlternative_iff] at hcode
      obtain ⟨p, hp⟩ := hcode
      cases hp
    · exact absurd hf (repeatedAlternative_not_mem_textFindings b.field p)
    · obtain ⟨rfl, hp⟩ := repeatedAlternative_mem_pathFindings_iff.mp hf
      exact ⟨j, raw, hraw, (ReferencePaths.repeats_iff hraw).mpr hp, rfl⟩
  · rintro ⟨j, raw, hraw, hrepeats, rfl⟩
    refine ⟨mem_lint_iff.mpr (.inr (.inr ⟨j, raw, hraw, _, ?_, rfl⟩)), rfl⟩
    exact repeatedAlternative_mem_pathFindings_iff.mpr
      ⟨rfl, (ReferencePaths.repeats_iff hraw).mp hrepeats⟩

/-- Whether lint reports a repeated alternative at a place. -/
def RuleSet.reportsRepetitionAt (rules : RuleSet) (place : String) : Bool :=
  rules.lint.any fun d => d.code == "W-004" && d.path? == some place

/-- Lint reports a repetition at the place of an alternative exactly when it reads as one before it. -/
theorem RuleSet.reportsRepetitionAt_iff {rules : RuleSet} {i : Nat} {b : Binding}
    (hb : rules.references[i]? = some b) (j : Nat) :
    rules.reportsRepetitionAt (pathPlace b.paths i j) = true ↔ b.paths.Repeats j := by
  rw [reportsRepetitionAt, List.any_eq_true]
  simp only [Bool.and_eq_true, beq_iff_eq]
  constructor
  · rintro ⟨d, hd, hcode, hpath⟩
    obtain ⟨i', b', hb', hd⟩ := mem_lint_iff.mp hd
    obtain ⟨k, raw, -, hrepeats, rfl⟩ := Binding.mem_lint_and_repeated_iff.mp ⟨hd, hcode⟩
    -- the place tells the binding and the alternative
    rw [Finding.path?_warningAt, Option.some.injEq] at hpath
    obtain ⟨rfl, hsteps⟩ := pathPlace_inj hpath
    obtain rfl := Option.some.inj (hb'.symm.trans hb)
    exact ReferencePaths.repeats_of_pathSteps_eq hrepeats hsteps
  · intro hrepeats
    obtain ⟨_, _, _, raw, _, hraw, _⟩ := id hrepeats
    obtain ⟨hd, hcode⟩ := Binding.mem_lint_and_repeated_iff.mpr ⟨j, raw, hraw, hrepeats, rfl⟩
    exact ⟨_, mem_lint_iff.mpr ⟨i, b, hb, hd⟩, hcode, rfl⟩

end ForeignKey
