import ForeignKey.Proofs.Pattern.Text
import ForeignKey.RuleSet

/-!
# Rule sets in normal form

Every text of a rule set may be replaced by the text of the pattern that it stands for. The patterns stay
the same, and so do the rules but for the declaration that their messages quote.
-/

namespace ForeignKey

/-! ## Normal forms -/

/-- The declaration with its texts in normal form. It stays a single text or a list. -/
def ReferencePaths.normalized : ReferencePaths → ReferencePaths
  | .single raw => .single (Pattern.normalText raw)
  | .alternatives raws => .alternatives (raws.map Pattern.normalText)

/-- The binding with its texts in normal form. -/
def Binding.normalized (b : Binding) : Binding :=
  { b with field := Pattern.normalText b.field, paths := b.paths.normalized }

/-- The rule set with all its texts in normal form. -/
def RuleSet.normalized (rules : RuleSet) : RuleSet := ⟨rules.references.map Binding.normalized⟩

example :
    RuleSet.normalized ⟨[⟨".cars..[]", .string, .alternatives ["makes.[].", "[]"]⟩,
      ⟨"", .number, .single "."⟩]⟩ =
      ⟨[⟨"cars.[]", .string, .alternatives ["makes.[]", "[]"]⟩, ⟨"", .number, .single ""⟩]⟩ := by
  decide

namespace ReferencePaths

theorem raws_normalized (paths : ReferencePaths) :
    paths.normalized.raws = paths.raws.map Pattern.normalText := by
  cases paths <;> rfl

theorem normalized_normalized (paths : ReferencePaths) :
    paths.normalized.normalized = paths.normalized := by
  cases paths with
  | single raw => exact congrArg single (Pattern.normalText_normalText raw)
  | alternatives raws =>
    have hraws : (raws.map Pattern.normalText).map Pattern.normalText =
        raws.map Pattern.normalText := by
      rw [List.map_map]
      exact List.map_congr_left fun raw _ => Pattern.normalText_normalText raw
    exact congrArg alternatives hraws

/-- The patterns of a declaration are those of its normal form. -/
theorem union?_normalized (paths : ReferencePaths) : paths.normalized.union? = paths.union? := by
  have hpatterns : (paths.raws.map Pattern.normalText).map Pattern.parse =
      paths.raws.map Pattern.parse := by
    rw [List.map_map]
    exact List.map_congr_left fun raw _ => Pattern.parse_normalText raw
  rw [union?, union?, raws_normalized, hpatterns]

end ReferencePaths

/-! ## Rules -/

/-- The rule with its declaration in normal form. -/
def Rule.normalized (rule : Rule) : Rule where
  base := rule.base
  paths := rule.paths.normalized
  patterns := rule.patterns
  declared := rule.paths.union?_normalized.trans rule.declared

namespace Binding

variable (b : Binding)

theorem normalized_normalized : b.normalized.normalized = b.normalized := by
  rw [normalized, normalized]
  simp only [Pattern.normalText_normalText, ReferencePaths.normalized_normalized]

theorem fieldPattern_normalized : b.normalized.fieldPattern = b.fieldPattern :=
  Pattern.parse_normalText b.field

theorem rule?_normalized : b.normalized.rule? = b.rule?.map Rule.normalized := by
  have hunion : b.normalized.paths.union? = b.paths.union? := b.paths.union?_normalized
  rw [rule?, rule?, Rule.ofPaths?, Rule.ofPaths?]
  split <;> split
  · next u hu v hv =>
    obtain rfl : u = v := by
      rw [hunion, hv] at hu
      exact (Option.some.inj hu).symm
    rfl
  · next hu hv =>
    rw [hunion, hv] at hu
    cases hu
  · next hu v hv =>
    rw [hunion, hv] at hu
    cases hu
  · rfl

end Binding

theorem RuleSet.normalized_normalized (rules : RuleSet) :
    rules.normalized.normalized = rules.normalized := by
  have hbindings : (rules.references.map Binding.normalized).map Binding.normalized =
      rules.references.map Binding.normalized := by
    rw [List.map_map]
    exact List.map_congr_left fun b _ => b.normalized_normalized
  exact congrArg RuleSet.mk hbindings

end ForeignKey
