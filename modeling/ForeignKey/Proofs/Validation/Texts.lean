import ForeignKey.Proofs.Lint
import ForeignKey.Proofs.RuleSet.Grammar
import ForeignKey.Proofs.Validation.Events
import ForeignKey.Validation.Texts

/-!
# Checking texts leaves nothing out

A rule set that was read from a text has patterns in every binding, so a check of two texts skips none, and
as the document is its own lookup document, no check is without one. Main statement: a check of two texts
fails for the faults of the texts, each as its reader gave it, and for nothing else; and when it succeeds,
it reports the lint of the rule set and, binding by binding, every located value that is not found.
-/

namespace ForeignKey

/-! ## Faults -/

/-- Why a text was refused, if it was. -/
def faultOf? {α : Type} : Except ParseFault α → Option ParseFault
  | .ok _ => none
  | .error fault => some fault

variable {read : DocumentReader} {document rules : String}

/-- The faults of two texts, that of the document first. -/
def textFaults (read : DocumentReader) (document rules : String) : List TextFault :=
  ((faultOf? (Value.parse document read)).map .document).toList ++
    ((faultOf? (RuleSet.parse rules read)).map .rules).toList

theorem checkTexts_eq_error_iff {faults : List TextFault} :
    checkTexts document rules read = .error faults ↔
      faults = textFaults read document rules ∧ faults ≠ [] := by
  rw [checkTexts, textFaults]
  -- by which of the two texts can be read; there is a fault unless both can
  cases Value.parse document read <;> cases RuleSet.parse rules read
  case ok.ok =>
    constructor
    · nofun
    · rintro ⟨rfl, h⟩
      exact absurd rfl h
  all_goals
    constructor
    · rintro ⟨⟩
      exact ⟨rfl, List.cons_ne_nil _ _⟩
    · rintro ⟨rfl, -⟩
      rfl

example : checkTexts " " "" = .error [.document .blank, .rules .blank] := by rfl

theorem exists_checkTexts_eq_error_iff :
    (∃ faults, checkTexts document rules read = .error faults) ↔
      (∃ fault, Value.parse document read = .error fault) ∨
        ∃ fault, RuleSet.parse rules read = .error fault := by
  simp only [checkTexts_eq_error_iff, exists_eq_left, textFaults]
  cases Value.parse document read <;> cases RuleSet.parse rules read <;> simp [faultOf?]

/-- A check that succeeds has read both texts. -/
theorem exists_parse_of_checkTexts {v : Validation} (h : checkTexts document rules read = .ok v) :
    ∃ d rs, Value.parse document read = .ok d ∧ RuleSet.parse rules read = .ok rs ∧
      v = { rs.validateSelf d with report := ⟨(rs.validateSelf d).report.errors, rs.lint⟩ } := by
  rw [checkTexts] at h
  split at h
  · next d rs hdocument hrules =>
    cases h
    exact ⟨d, rs, hdocument, hrules, rfl⟩
  all_goals cases h

/-! ## Reports -/

namespace Binding

variable (b : Binding) (document : Value)

/-- The located values of a document that no pattern of the binding reaches in it. -/
def dangling : List (Location × Value) :=
  (b.fieldPattern.locate document).filter fun found =>
    !b.patterns.any fun p => p.occurs found.2 document

/-- The violation of a value that is not found. -/
def notFoundAt (found : Location × Value) : Violation :=
  .ofFailure found.1 (.notFound b.base found.2 b.paths)

theorem violation?_eq (found : Location × Value) :
    b.violation? document found =
      if b.patterns.any fun p => p.occurs found.2 document then none
      else some (b.notFoundAt found) := by
  rw [violation?]
  cases hbase : b.base <;> simp [notFoundAt, Violation.ofFailure, hbase] <;> rfl

theorem violations_of_raws_ne_nil (h : b.paths.raws ≠ []) :
    b.violations document document = (b.dangling document).map b.notFoundAt := by
  rw [violations, if_neg h, dangling]
  induction b.fieldPattern.locate document with
  | nil => rfl
  | cons found rest ih =>
    rw [List.filterMap_cons, List.filter_cons, violation?_eq, ih]
    cases b.patterns.any fun p => p.occurs found.2 document <;> rfl

end Binding

/-- A report on a document that leaves no binding of the rules out. -/
structure Validation.Complete (v : Validation) (document : Value) (rules : RuleSet) : Prop where
  errors : v.report.errors =
    rules.references.flatMap fun b => (b.dangling document).map b.notFoundAt
  warnings : v.report.warnings = rules.lint
  notFound : ∀ e ∈ v.report.errors, e.kind ≠ .missingContext
  patterned : ∀ w ∈ v.report.warnings, w.code ≠ "W-005"
  unskipped : ∀ field, .bindingSkipped field ∉ v.events

namespace RuleSet

variable {rules : RuleSet}

theorem skippedFields_eq_nil (h : ∀ b ∈ rules.references, b.paths.raws ≠ []) :
    rules.skippedFields = [] := by
  rw [skippedFields, List.map_eq_nil_iff, List.filter_eq_nil_iff]
  intro b hb
  simpa using h b hb

/-- Bindings that all have patterns are all checked. -/
theorem complete_validateSelf (h : ∀ b ∈ rules.references, b.paths.raws ≠ []) (document : Value) :
    Validation.Complete
      { rules.validateSelf document with
        report := ⟨(rules.validateSelf document).report.errors, rules.lint⟩ } document rules := by
  have herrors : (rules.validateSelf document).report.errors =
      rules.references.flatMap fun b => (b.dangling document).map b.notFoundAt := by
    rw [validateSelf, errors_validate_over, violations]
    exact List.flatMap_congr fun b hb => b.violations_of_raws_ne_nil document (h b hb)
  refine ⟨herrors, rfl, ?_, ?_, ?_⟩
  · intro e he
    rw [herrors] at he
    obtain ⟨b, -, he⟩ := List.mem_flatMap.mp he
    obtain ⟨found, -, rfl⟩ := List.mem_map.mp he
    nofun
  · intro w hw hcode
    obtain ⟨b, hb, hraws⟩ := rules.exists_noPatterns_iff.mp ⟨w, hw, hcode⟩
    exact h b hb hraws
  · intro field hfield
    have hskipped := (rules.mem_events_bindingSkipped_iff document (.over document)).mp hfield
    rw [skippedFields_eq_nil h] at hskipped
    cases hskipped

end RuleSet

/-- With any reader whose documents repeat no key, a check of two texts fails exactly when one of them
cannot be read, with the faults of both; and when it succeeds, its report is complete: no binding is left
out. -/
theorem checkTexts_leaves_nothing_out (hread : read.KeepsKeysUnique) (document rules : String) :
    ((∃ faults, checkTexts document rules read = .error faults) ↔
      (∃ fault, Value.parse document read = .error fault) ∨
        ∃ fault, RuleSet.parse rules read = .error fault) ∧
    (∀ faults, checkTexts document rules read = .error faults ↔
      faults = textFaults read document rules ∧ faults ≠ []) ∧
    (∀ v, checkTexts document rules read = .ok v →
      ∃ d rs, Value.parse document read = .ok d ∧ RuleSet.parse rules read = .ok rs ∧
        v.Complete d rs) := by
  refine ⟨exists_checkTexts_eq_error_iff, fun _ => checkTexts_eq_error_iff, ?_⟩
  intro v h
  obtain ⟨d, rs, hdocument, hrules, rfl⟩ := exists_parse_of_checkTexts h
  have hraws := RuleSet.raws_ne_nil_of_parse hread hrules
  exact ⟨d, rs, hdocument, hrules, RuleSet.complete_validateSelf hraws d⟩

/-- Two cars, and one of their makes: the second car is reported, and the doubled dots of its binding. -/
theorem checkTexts_of_two_cars :
    let document := "cars: [nissan, ford]\nmakes: [nissan]"
    let rules := "references:\n- field: cars..[]\n  fk: makes.[]"
    ∃ v, checkTexts document rules = .ok v ∧
      v.report.errors.map (fun e => (e.path, e.code)) = [("cars[1]", "string.fk_not_found")] ∧
      v.report.warnings.map (·.code) = ["W-002"] := by
  intro document rules
  let d : Value := .object [("cars", .array [.string "nissan", .string "ford"]),
    ("makes", .array [.string "nissan"])]
  let rs : RuleSet := ⟨[⟨"cars..[]", .string, .single "makes.[]"⟩]⟩
  have hdocument : Value.parse document = .ok d := by decide +kernel
  have htree : Value.parse rules = .ok (.object [("references",
      .array [.object [("field", .string "cars..[]"), ("fk", .string "makes.[]")]])]) := by
    decide +kernel
  have hrules : RuleSet.parse rules = .ok rs := by
    rw [RuleSet.parse_of_object htree]
    rfl
  obtain ⟨v, hcheck⟩ : ∃ v, checkTexts document rules = .ok v := by
    rw [checkTexts, hdocument, hrules]
    exact ⟨_, rfl⟩
  obtain ⟨-, -, hok⟩ :=
    checkTexts_leaves_nothing_out DocumentReader.keepsKeysUnique_yaml document rules
  obtain ⟨d', rs', hd, hrs, hcomplete⟩ := hok v hcheck
  rw [hdocument] at hd
  rw [hrules] at hrs
  cases hd
  cases hrs
  refine ⟨v, hcheck, ?_, ?_⟩
  · rw [hcomplete.errors]
    decide
  · rw [hcomplete.warnings]
    decide

end ForeignKey
