import ForeignKey.Proofs.Pattern.Congruence
import ForeignKey.Proofs.Validation

/-!
# Equal documents are validated alike

A target and a lookup document may each be replaced by an equal one: entries in another order at any
depth, integers written as doubles. A validation over a fresh context then reports the same violations in
the same order, with the values as they are written in its own target.
-/

namespace ForeignKey

/-- Two violations that differ at most in how the value is written, in the message as well. -/
structure Violation.Alike (x y : Violation) : Prop where
  path : x.path = y.path
  code : x.code = y.code
  kind : x.kind = y.kind
  value : Option.Rel (fun v w => v.equal w = true) x.value? y.value?

variable {target target' document document' : Value}

namespace Binding

theorem violation?_congr (b : Binding) (hdocument : document.WrittenAs document')
    {found found' : Location × Value} (hlocation : found.1 = found'.1)
    (hvalue : found.2.WrittenAs found'.2) :
    Option.Rel Violation.Alike (b.violation? document found) (b.violation? document' found') := by
  have hany : (b.patterns.any fun p => p.occurs found.2 document) =
      b.patterns.any fun p => p.occurs found'.2 document' := by
    refine any_eq_of_forall₂ (R := Eq) ?_ (List.forall₂_same.mpr fun _ _ => rfl)
    rintro p _ rfl
    exact Segment.occurs_congr p.segments hvalue hdocument
  rw [violation?, violation?, hany]
  split
  · exact .none
  · exact .some ⟨by rw [hlocation], rfl, rfl, .some hvalue.equal⟩

theorem violations_congr (b : Binding) (htarget : target.WrittenAs target')
    (hdocument : document.WrittenAs document') :
    List.Forall₂ Violation.Alike (b.violations target document) (b.violations target' document') := by
  rw [violations, violations]
  split
  · exact .nil
  · exact List.rel_filterMap (fun _ _ h => b.violation?_congr hdocument h.1 h.2)
      (Segment.located_congr b.fieldPattern.segments htarget)

end Binding

namespace RuleSet

theorem violations_congr (rules : RuleSet) (htarget : target.WrittenAs target')
    (hdocument : document.WrittenAs document') :
    List.Forall₂ Violation.Alike (rules.violations target document)
      (rules.violations target' document') := by
  rw [violations, violations]
  refine List.rel_flatMap (R := Eq) (List.forall₂_same.mpr fun _ _ => rfl) ?_
  rintro b _ rfl
  exact b.violations_congr htarget hdocument

/-- Patterns locate equal values at the same places of equal documents, in the same order. So a
validation cannot tell equal targets apart, nor equal lookup documents: the violations agree one by one
in path, code and kind, and their values are equal. -/
theorem validate_ignores_writing :
    (∀ d₁ d₂ : Value, d₁.UniqueKeys → d₁.equal d₂ = true → ∀ p : Pattern,
      List.Forall₂ (fun r s => r.1 = s.1 ∧ r.2.equal s.2 = true) (p.locate d₁) (p.locate d₂)) ∧
    (∀ (rules : RuleSet) (t₁ t₂ e₁ e₂ : Value), t₁.UniqueKeys → t₁.equal t₂ = true →
      e₁.UniqueKeys → e₁.equal e₂ = true →
      List.Forall₂ Violation.Alike (rules.validate t₁ (some (.over e₁))).report.errors
        (rules.validate t₂ (some (.over e₂))).report.errors) := by
  constructor
  · intro d₁ d₂ hkeys hequal p
    exact (Segment.located_congr p.segments ⟨hkeys, hequal⟩).imp fun _ _ h => ⟨h.1, h.2.equal⟩
  · intro rules t₁ t₂ e₁ e₂ htkeys htequal hekeys heequal
    rw [errors_validate_over, errors_validate_over]
    exact rules.violations_congr ⟨htkeys, htequal⟩ ⟨hekeys, heequal⟩

/-- The double `2.0` for `2` and entries in another order, in the target and in the lookup document: in
both writings the second car alone is none of the known ones. -/
theorem validate_reordered_documents :
    let two : Value := .number (.double ⟨false, ⟨1024, by decide⟩, ⟨0, by decide⟩⟩)
    let t₁ : Value := .object [("cars", .array [.object [("id", .ofNat 1), ("make", .ofNat 2)], .null])]
    let t₂ : Value := .object [("cars", .array [.object [("make", two), ("id", .ofNat 1)], .null])]
    let e₁ : Value := .object [("planes", .null), ("known", .object [("make", two), ("id", .ofNat 1)])]
    let e₂ : Value :=
      .object [("known", .object [("id", .ofNat 1), ("make", .ofNat 2)]), ("planes", .null)]
    let rules : RuleSet := ⟨[⟨"cars.[]", .number, .single "known"⟩]⟩
    let errors₁ := (rules.validate t₁ (some (.over e₁))).report.errors
    let errors₂ := (rules.validate t₂ (some (.over e₂))).report.errors
    t₁.UniqueKeys ∧ t₁.equal t₂ = true ∧ e₁.UniqueKeys ∧ e₁.equal e₂ = true ∧
      List.Forall₂ (fun r s => r.1 = s.1 ∧ r.2.equal s.2 = true)
        ((Pattern.parse "cars.[]").locate t₁) ((Pattern.parse "cars.[]").locate t₂) ∧
      List.Forall₂ Violation.Alike errors₁ errors₂ ∧ errors₁.map (·.path) = ["cars[1]"] := by
  intro two t₁ t₂ e₁ e₂ rules errors₁ errors₂
  have htarget : t₁.UniqueKeys := by decide
  have hdocument : e₁.UniqueKeys := by decide
  have htargets : t₁.equal t₂ = true := by decide
  have hdocuments : e₁.equal e₂ = true := by decide
  obtain ⟨hlocate, hvalidate⟩ := validate_ignores_writing
  refine ⟨htarget, htargets, hdocument, hdocuments, hlocate t₁ t₂ htarget htargets _,
    hvalidate rules t₁ t₂ e₁ e₂ htarget htargets hdocument hdocuments, ?_⟩
  have herrors : errors₁ = rules.violations t₁ e₁ := errors_validate_over rules t₁ e₁
  rw [herrors]
  rfl

end RuleSet

end ForeignKey
