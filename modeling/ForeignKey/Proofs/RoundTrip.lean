import Mathlib.Data.List.Basic
import ForeignKey.ParseError.Form
import ForeignKey.Proofs.Pattern.Text
import ForeignKey.Proofs.RuleSet.Grammar

/-!
# Reading back the serialized forms

Patterns, diagnostics and parse errors are read back from their serialized form as they were. So are rule
sets whose bindings all have patterns; a binding without patterns has a form too, an empty list, which is
refused. Of a report a single thing is lost: a violation that holds null is read back without a value, since
null stands for absence there. The form itself tells the two apart, so that no two reports share one.
-/

namespace ForeignKey

/-! ## Readings of what was written -/

section Written

variable {α : Type} {read : Value → Reading α} {write : α → Value}

/-- What can be read back is determined by its form. -/
theorem injective_of_read (h : ∀ a, read (write a) = .ok a) : Function.Injective write := by
  intro a b hab
  have hread := h a
  rw [hab, h b] at hread
  exact (Except.ok.inj hread).symm

/-- A list is read back element by element. -/
theorem readList_map {f : α → α} {l : List α} (h : ∀ a ∈ l, read (write a) = .ok (f a)) :
    readList read (.array (l.map write)) = .ok (l.map f) := by
  refine readList_eq_ok_iff.mpr ⟨_, rfl, ?_⟩
  rw [List.forall₂_map_left_iff, List.forall₂_map_right_iff]
  exact List.forall₂_same.mpr h

end Written

/-- A written pattern is read as itself. -/
theorem Pattern.ofValue_toValue (p : Pattern) : ofValue p.toValue = .ok p :=
  congrArg Except.ok p.parse_text

/-! ## Diagnostics and parse errors -/

/-- A path that is absent is left out, and what is left out is read as absent. -/
theorem Diagnostic.ofValue_toValue (d : Diagnostic) : ofValue d.toValue = .ok d := by
  obtain ⟨severity, code, path?, message⟩ := d
  cases severity <;> cases path? <;> rfl

theorem ParseError.ofValue_toValue (e : ParseError) : ofValue e.toValue = .ok e := by
  obtain ⟨kind, message, path?, line?⟩ := e
  cases kind <;> cases path? <;> cases line? <;> rfl

/-! ## Rule sets -/

namespace ReferencePaths

theorem ofValue_toValue {paths : ReferencePaths} (h : paths.raws ≠ []) :
    ofValue paths.toValue = .ok paths := by
  rw [ofValue_eq_ok_iff]
  cases paths with
  | single raw => exact .single raw
  | alternatives raws => exact .alternatives h

/-- One path alone and a list of it alone have different forms. -/
theorem toValue_single_ne (raw : String) :
    (single raw).toValue ≠ (alternatives [raw]).toValue := nofun

end ReferencePaths

namespace Binding

variable {b : Binding}

theorem ofValue_toValue (h : b.paths.raws ≠ []) : ofValue b.toValue = .ok b := by
  rw [toValue, ofValue_object_eq_ok_iff (by simp), hasEntries_fields_iff]
  exact ⟨rfl, .name, ReferencePaths.ofValue_eq_ok_iff.mp (ReferencePaths.ofValue_toValue h)⟩

/-- The form of a binding without patterns is refused for that. -/
theorem ofValue_toValue_of_raws_eq_nil (h : b.paths.raws = []) :
    ofValue b.toValue = .error .noPaths := by
  obtain ⟨field, base, paths⟩ := b
  cases paths with
  | single raw => cases h
  | alternatives raws =>
    cases h
    cases base <;> rfl

end Binding

namespace RuleSet

variable {rules : RuleSet}

/-- A rule set is read from the list of its bindings. -/
theorem ofValue_references {v : Value} {references : List Binding}
    (h : readList Binding.ofValue v = .ok references) :
    ofValue (.object [("references", v)]) = .ok ⟨references⟩ := by
  have hget : referencesField.get [("references", v)] = .ok references :=
    Field.get_defaulted_iff.mpr (.inr ⟨v, rfl, h⟩)
  refine ofValue_eq_ok_iff_get.mpr ⟨_, ?_, hget⟩
  refine RecordShape.entries_object_of_passes (by decide) (List.nodup_singleton _) ?_ ?_
  · rw [List.forall_mem_singleton]
    exact List.mem_singleton_self _
  · rw [shape, List.forall_mem_singleton]
    exact Field.passes_shape_iff.mpr ⟨_, hget⟩

/-- A list of bindings that is refused makes the rule set refused. -/
theorem ofValue_references_of_error {v : Value} {e : ShapeError}
    (h : readList Binding.ofValue v = .error e) :
    ofValue (.object [("references", v)]) = .error e := by
  rw [ofValue_object_eq_error_iff, RecordShape.entries_object_eq_error_iff]
  left
  rw [RecordShape.checkEntries_eq_error_iff]
  refine .here ((RecordShape.checkEntry_eq_error_iff (by decide) rfl).mpr (.inr ?_))
  exact ⟨referencesField.shape, List.mem_singleton_self _, rfl, Reading.map_eq_error_iff.mpr h⟩

theorem ofValue_toValue (h : ∀ b ∈ rules.references, b.paths.raws ≠ []) :
    ofValue rules.toValue = .ok rules := by
  have hlist := readList_map (f := id) fun b hb => Binding.ofValue_toValue (h b hb)
  rw [List.map_id] at hlist
  exact ofValue_references hlist

/-- The first binding without patterns makes the form of a rule set refused. -/
theorem ofValue_toValue_of_raws_eq_nil (h : ∃ b ∈ rules.references, b.paths.raws = []) :
    ofValue rules.toValue = .error .noPaths := by
  refine ofValue_references_of_error (mapM_eq_error_iff.mpr (.of_exists ?_ ?_))
  · rw [List.forall_mem_map]
    intro b _
    by_cases hraws : b.paths.raws = []
    · exact .inr (Binding.ofValue_toValue_of_raws_eq_nil hraws)
    · exact .inl ⟨b, Binding.ofValue_toValue hraws⟩
  · obtain ⟨b, hb, hraws⟩ := h
    exact ⟨_, List.mem_map_of_mem hb, Binding.ofValue_toValue_of_raws_eq_nil hraws⟩

end RuleSet

/-! ## Violations -/

namespace Violation

variable {v w : Violation}

/-- A violation without its value if that is null. -/
def withoutNull (v : Violation) : Violation :=
  match v.value? with
  | some .null => { v with value? := none }
  | _ => v

theorem withoutNull_of_eq_null (h : v.value? = some .null) :
    v.withoutNull = { v with value? := none } := by
  rw [withoutNull, h]

theorem withoutNull_of_ne_null (h : v.value? ≠ some .null) : v.withoutNull = v := by
  rw [withoutNull]
  split
  · next hnull => exact absurd hnull h
  · rfl

theorem value?_withoutNull_ne_null (v : Violation) : v.withoutNull.value? ≠ some .null := by
  by_cases h : v.value? = some .null
  · rw [withoutNull_of_eq_null h]
    exact nofun
  · rwa [withoutNull_of_ne_null h]

@[simp] theorem withoutNull_withoutNull (v : Violation) :
    v.withoutNull.withoutNull = v.withoutNull :=
  withoutNull_of_ne_null v.value?_withoutNull_ne_null

/-- A violation is what is left of it without null, and its value. -/
theorem eq_of_withoutNull_eq (h : v.withoutNull = w.withoutNull) (hvalue : v.value? = w.value?) :
    v = w := by
  by_cases hnull : v.value? = some .null
  · rw [withoutNull_of_eq_null hnull, withoutNull_of_eq_null (hvalue ▸ hnull)] at h
    obtain ⟨code, kind, path, message, value?⟩ := v
    obtain ⟨code', kind', path', message', value?'⟩ := w
    cases h
    cases hvalue
    rfl
  · rwa [withoutNull_of_ne_null hnull, withoutNull_of_ne_null (hvalue ▸ hnull)] at h

/-- A violation is read back without null. -/
theorem ofValue_toValue (v : Violation) : ofValue v.toValue = .ok v.withoutNull := by
  obtain ⟨code, kind, path, message, value?⟩ := v
  cases kind <;> cases value? with
  | none => rfl
  | some value => cases value <;> rfl

theorem field?_toValue (v : Violation) : v.toValue.field? "value" = v.value? := by
  obtain ⟨code, kind, path, message, value?⟩ := v
  cases value? <;> rfl

/-- The form of a violation determines it, also where reading it back does not. -/
theorem toValue_injective : Function.Injective toValue := by
  intro v w h
  have hread := v.ofValue_toValue
  rw [h, w.ofValue_toValue] at hread
  refine eq_of_withoutNull_eq (Except.ok.inj hread).symm ?_
  rw [← field?_toValue v, h, field?_toValue w]

end Violation

/-! ## Reports -/

namespace Report

variable {r : Report}

/-- A report whose violations are without null. -/
def withoutNulls (r : Report) : Report := { r with errors := r.errors.map Violation.withoutNull }

theorem withoutNulls_withoutNulls (r : Report) : r.withoutNulls.withoutNulls = r.withoutNulls := by
  simp [withoutNulls]

theorem withoutNulls_eq_self_iff : r.withoutNulls = r ↔ ∀ v ∈ r.errors, v.value? ≠ some .null := by
  constructor
  · intro h v hv
    rw [← h] at hv
    obtain ⟨w, -, rfl⟩ := List.mem_map.mp hv
    exact w.value?_withoutNull_ne_null
  · intro h
    have herrors := List.map_congr_left fun v hv => Violation.withoutNull_of_ne_null (h v hv)
    rw [withoutNulls, herrors, List.map_id']

/-- A report is read from the lists of its violations and warnings. -/
theorem ofValue_lists {errors warnings : Value} (herrors : readList Violation.ofValue errors = .ok r.errors)
    (hwarnings : readList Diagnostic.ofValue warnings = .ok r.warnings) :
    ofValue (.object [("errors", errors), ("warnings", warnings)]) = .ok r := by
  have hgetErrors : errorsField.get [("errors", errors), ("warnings", warnings)] = .ok r.errors :=
    Field.get_required_iff.mpr ⟨_, rfl, herrors⟩
  have hgetWarnings :
      warningsField.get [("errors", errors), ("warnings", warnings)] = .ok r.warnings :=
    Field.get_required_iff.mpr ⟨_, rfl, hwarnings⟩
  refine Reading.bind_eq_ok_iff.mpr ⟨_, ?_, Reading.bind_eq_ok_iff.mpr ⟨_, hgetErrors,
    Reading.bind_eq_ok_iff.mpr ⟨_, hgetWarnings, rfl⟩⟩⟩
  refine RecordShape.entries_object_of_passes (by decide) (by simp) ?_ ?_
  · rw [List.forall_mem_cons, List.forall_mem_singleton]
    exact ⟨List.mem_cons_self, List.mem_cons_of_mem _ (List.mem_singleton_self _)⟩
  · rw [shape, List.forall_mem_cons, List.forall_mem_singleton]
    exact ⟨Field.passes_shape_iff.mpr ⟨_, hgetErrors⟩, Field.passes_shape_iff.mpr ⟨_, hgetWarnings⟩⟩

/-- A report is read back without null in its violations. -/
theorem ofValue_toValue (r : Report) : ofValue r.toValue = .ok r.withoutNulls := by
  refine ofValue_lists (readList_map fun v _ => v.ofValue_toValue) ?_
  have hwarnings := readList_map (f := id) (l := r.warnings) fun d _ => d.ofValue_toValue
  rwa [List.map_id] at hwarnings

/-- Exactly the reports without null in their violations are read back as they were. -/
theorem ofValue_toValue_eq_self_iff :
    ofValue r.toValue = .ok r ↔ ∀ v ∈ r.errors, v.value? ≠ some .null := by
  rw [ofValue_toValue, Except.ok.injEq, withoutNulls_eq_self_iff]

theorem toValue_injective : Function.Injective toValue := by
  intro r s h
  obtain ⟨errors, warnings⟩ := r
  obtain ⟨errors', warnings'⟩ := s
  simp only [toValue, Value.object.injEq, List.cons.injEq, Prod.mk.injEq, Value.array.injEq,
    true_and, and_true] at h
  obtain ⟨herrors, hwarnings⟩ := h
  have hdiagnostics := injective_of_read Diagnostic.ofValue_toValue
  rw [List.map_injective_iff.mpr Violation.toValue_injective herrors,
    List.map_injective_iff.mpr hdiagnostics hwarnings]

end Report

/-! ## The whole format -/

/-- Rule sets with patterns everywhere, patterns, diagnostics and parse errors come back as they were, one
path alone apart from a list of it alone; an empty list of patterns is refused. Reports come back without
null in their violations, and the second time as they were; their form determines them, null or not. -/
theorem serialized_forms_read_back :
    (∀ rules : RuleSet,
      ((∀ b ∈ rules.references, b.paths.raws ≠ []) → RuleSet.ofValue rules.toValue = .ok rules) ∧
        ((∃ b ∈ rules.references, b.paths.raws = []) →
          RuleSet.ofValue rules.toValue = .error .noPaths)) ∧
      (∀ raw, (ReferencePaths.single raw).toValue ≠ (ReferencePaths.alternatives [raw]).toValue) ∧
      (∀ p : Pattern, Pattern.ofValue p.toValue = .ok p) ∧
      (∀ d : Diagnostic, Diagnostic.ofValue d.toValue = .ok d) ∧
      (∀ e : ParseError, ParseError.ofValue e.toValue = .ok e) ∧
      (∀ r : Report, Report.ofValue r.toValue = .ok r.withoutNulls ∧
        Report.ofValue r.withoutNulls.toValue = .ok r.withoutNulls) ∧
      Function.Injective Report.toValue ∧
      ∀ v : Violation,
        { v with value? := some .null }.toValue ≠ { v with value? := none : Violation }.toValue := by
  refine ⟨fun rules => ⟨RuleSet.ofValue_toValue, RuleSet.ofValue_toValue_of_raws_eq_nil⟩,
    ReferencePaths.toValue_single_ne, Pattern.ofValue_toValue, Diagnostic.ofValue_toValue,
    ParseError.ofValue_toValue, fun r => ⟨r.ofValue_toValue, ?_⟩, Report.toValue_injective,
    fun v => ?_⟩
  · rw [Report.ofValue_toValue, Report.withoutNulls_withoutNulls]
  · exact Violation.toValue_injective.ne fun h => nomatch congrArg Violation.value? h

/-- The two forms of one path, a binding that lists none, and a violation that holds null. -/
theorem serialized_forms_of_cars :
    RuleSet.ofValue (RuleSet.toValue
        ⟨[⟨"make", .string, .single "cars.[].make"⟩,
          ⟨"id", .number, .alternatives ["cars.[].id"]⟩]⟩) =
      .ok ⟨[⟨"make", .string, .single "cars.[].make"⟩,
        ⟨"id", .number, .alternatives ["cars.[].id"]⟩]⟩ ∧
      RuleSet.ofValue (RuleSet.toValue
          ⟨[⟨"make", .string, .single "cars.[].make"⟩, ⟨"id", .number, .alternatives []⟩]⟩) =
        .error .noPaths ∧
      Report.ofValue (Report.toValue
          ⟨[⟨"number.fk_not_found", .notFound, "id", "not found", some .null⟩], []⟩) =
        .ok ⟨[⟨"number.fk_not_found", .notFound, "id", "not found", none⟩], []⟩ := by
  obtain ⟨hrules, -, -, -, -, hreports, -, -⟩ := serialized_forms_read_back
  refine ⟨(hrules _).1 (by decide), (hrules _).2 ?_, (hreports _).1⟩
  exact ⟨⟨"id", .number, .alternatives []⟩, by decide, rfl⟩

end ForeignKey
