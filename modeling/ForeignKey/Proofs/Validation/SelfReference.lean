import ForeignKey.Proofs.Pattern.Search
import ForeignKey.Proofs.Validation.Tasks

/-!
# References to the own field

A binding may list the pattern of its own field among its reference paths. When a document is validated
with itself, the walk that finds the values to check then passes the same places as the walk that collects
the candidates, and every value of a document without repeated keys equals itself. Main statement: such a
binding checks its values and reports none of them, so it can be left out without a change in the report.
-/

namespace ForeignKey

/-! ## One binding -/

namespace Binding

/-- One of the reference paths reads as the field does. -/
def RefersToItself (b : Binding) : Prop := b.fieldPattern ∈ b.patterns

variable {b : Binding} {document : Value}

/-- What the field locates, its own pattern finds again. -/
theorem violation?_eq_none_of_mem_locate (hdocument : document.UniqueKeys) (hself : b.RefersToItself)
    {found : Location × Value} (hfound : found ∈ b.fieldPattern.locate document) :
    b.violation? document found = none := by
  have hcollected : found.2 ∈ b.fieldPattern.collect document := by
    rw [← Pattern.map_snd_locate]
    exact List.mem_map_of_mem hfound
  have hoccurs : b.fieldPattern.occurs found.2 document = true :=
    Pattern.occurs_of_mem_collect hdocument hcollected
  rw [violation?, if_pos (List.any_eq_true.mpr ⟨b.fieldPattern, hself, hoccurs⟩)]

theorem violations_self_eq_nil (hdocument : document.UniqueKeys) (hself : b.RefersToItself) :
    b.violations document document = [] := by
  rw [violations, ite_eq_left_iff, List.filterMap_eq_nil_iff]
  exact fun _ _ hfound => violation?_eq_none_of_mem_locate hdocument hself hfound

/-- Whatever was checked before, a binding that refers to itself has nothing to report. -/
theorem errors_validate_eq_nil (hdocument : document.UniqueKeys) (hself : b.RefersToItself)
    {context : Context} (h : context.Sound document) :
    (b.validate document (some context)).errors = [] := by
  rw [(b.validate_reports document h).errors_eq]
  exact violations_self_eq_nil hdocument hself

/-- The bindings before it in a run leave a context in which it has nothing to report. -/
theorem errors_validate_after_eq_nil (hdocument : document.UniqueKeys) (hself : b.RefersToItself)
    (before : List Binding) :
    (b.validate document
      (Binding.validateAll document before (some (.over document))).context?).errors = [] := by
  obtain ⟨next, hnext, hsound⟩ :=
    (Binding.validateAll_reports before document (Context.sound_over document)).context
  rw [hnext]
  exact errors_validate_eq_nil hdocument hself hsound

end Binding

/-! ## The work that is done all the same -/

theorem Binding.validateAll_append (target : Value) (first second : List Binding)
    (context? : Option Context) :
    Binding.validateAll target (first ++ second) context? =
      (Binding.validateAll target first context?).followedBy
        (Binding.validateAll target second (Binding.validateAll target first context?).context?) := by
  simp only [validateAll_eq_performAll, List.flatMap_append, Task.performAll_append]

/-! ## Rule sets with such a binding -/

namespace RuleSet

/-- The errors of a run, around one of its bindings. -/
theorem errors_validateSelf_around (document : Value) (before after : List Binding) (b : Binding) :
    let earlier := Binding.validateAll document before (some (.over document))
    let own := b.validate document earlier.context?
    ((⟨before ++ b :: after⟩ : RuleSet).validateSelf document).report.errors =
      earlier.errors ++ (own.errors ++ (Binding.validateAll document after own.context?).errors) := by
  show (Binding.validateAll document (before ++ b :: after) _).errors = _
  rw [Binding.validateAll_append]
  rfl

theorem errors_validateSelf (rules : RuleSet) (document : Value) :
    (rules.validateSelf document).report.errors = rules.violations document document :=
  rules.errors_validate_over document document

/-- A binding that has no violations can be left out. -/
theorem errors_validateSelf_without {document : Value} {b : Binding}
    (h : b.violations document document = []) (before after : List Binding) :
    ((⟨before ++ b :: after⟩ : RuleSet).validateSelf document).report.errors =
      ((⟨before ++ after⟩ : RuleSet).validateSelf document).report.errors := by
  rw [errors_validateSelf, errors_validateSelf, violations, violations, List.flatMap_append,
    List.flatMap_append, List.flatMap_cons, h, List.nil_append]

/-- In a document without repeated keys, a binding that refers to itself reports nothing, whatever was
checked over the document before. So in a validation of the document with itself, wherever the binding
stands among others, it checks all values of its field in the context that the bindings before it leave,
reports none of them, and the report is that of the other bindings. -/
theorem validateSelf_of_self_reference {document : Value} (hdocument : document.UniqueKeys)
    {b : Binding} (hself : ∃ raw ∈ b.paths.raws, Pattern.parse raw = b.fieldPattern) :
    (∀ context : Context, context.Reachable document →
      (b.validate document (some context)).errors = []) ∧
    ∀ before after : List Binding,
      let earlier := Binding.validateAll document before (some (.over document))
      let own := b.validate document earlier.context?
      let later := Binding.validateAll document after own.context?
      let rules : RuleSet := ⟨before ++ b :: after⟩
      let others : RuleSet := ⟨before ++ after⟩
      own.checked = (b.fieldPattern.locate document).length ∧ own.errors = [] ∧
        (rules.validateSelf document).report.errors = earlier.errors ++ later.errors ∧
        (rules.validateSelf document).report.errors = (others.validateSelf document).report.errors := by
  have hrefers : b.RefersToItself := List.mem_map.mpr hself
  have hraws : b.paths.raws ≠ [] := List.ne_nil_of_mem hself.choose_spec.1
  have hviolations := Binding.violations_self_eq_nil hdocument hrefers
  refine ⟨fun context h => Binding.errors_validate_eq_nil hdocument hrefers h.sound,
    fun before after => ?_⟩
  have hown := Binding.errors_validate_after_eq_nil hdocument hrefers before
  refine ⟨Binding.checked_validate hraws document _, hown, ?_,
    errors_validateSelf_without hviolations before after⟩
  rw [errors_validateSelf_around, hown, List.nil_append]

/-- Null, a nested array with an object, a double and a text, all found in their own places after a car has
been looked up in vain; the second reference path is the field, written otherwise. -/
theorem validateSelf_of_mixed_values :
    let half : Value := .number (.double ⟨false, ⟨1022, by decide⟩, ⟨0, by decide⟩⟩)
    let nested : Value := .array [.object [("a", half), ("b", .array [])], .null]
    let document : Value :=
      .object [("cars", .array [.string "ford"]), ("xs", .array [.null, nested, half, .string "0"])]
    let cars : Binding := ⟨"cars.[]", .string, .single "makes.[]"⟩
    let own : Binding := ⟨"xs.[]", .number, .alternatives ["makes", ".xs..[]"]⟩
    let afterCars := (Binding.validateAll document [cars] (some (.over document))).context?
    document.UniqueKeys ∧ Pattern.parse ".xs..[]" = own.fieldPattern ∧
      (own.validate document afterCars).checked = 4 ∧ (own.validate document afterCars).errors = [] ∧
      ((⟨[cars, own]⟩ : RuleSet).validateSelf document).report.errors.map (·.path) = ["cars[0]"] := by
  intro half nested document cars own afterCars
  have hdocument : document.UniqueKeys := by decide
  have hread : Pattern.parse ".xs..[]" = own.fieldPattern := by decide
  have hself : ∃ raw ∈ own.paths.raws, Pattern.parse raw = own.fieldPattern :=
    ⟨".xs..[]", .tail _ (.head _), hread⟩
  have hlocated : (own.fieldPattern.locate document).length = 4 := by
    simp only [own]
    rfl
  obtain ⟨-, hplaced⟩ := validateSelf_of_self_reference hdocument hself
  obtain ⟨hchecked, herrors, -, hreport⟩ := hplaced [cars] []
  refine ⟨hdocument, hread, hchecked.trans hlocated, herrors, ?_⟩
  have hall : ((⟨[cars, own]⟩ : RuleSet).validateSelf document).report.errors = _ := hreport
  rw [hall, errors_validateSelf]
  simp only [cars]
  rfl

end RuleSet

end ForeignKey
