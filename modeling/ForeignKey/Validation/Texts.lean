import ForeignKey.Lint
import ForeignKey.Parsing
import ForeignKey.Validation

/-!
# Checking texts

A document and a rule set, both given as texts: the document is validated with itself as the lookup
document, and what the rule set itself may be blamed for comes along as warnings. If a text cannot be
read, there is no validation, and the faults of both texts are reported.
-/

namespace ForeignKey

/-- A text that cannot be read, and why. -/
inductive TextFault where
  | document (fault : ParseFault)
  | rules (fault : ParseFault)

namespace TextFault

/-- Why the text cannot be read. -/
def fault : TextFault → ParseFault
  | .document fault => fault
  | .rules fault => fault

/-- A fault in one line. -/
def text : TextFault → String
  | .document fault => "Document parse error: " ++ fault.error.text
  | .rules fault => "Rule set parse error: " ++ fault.error.text

end TextFault

/-- Checks a document against a rule set. The faults of the texts come in the order of the texts. -/
def checkTexts (document rules : String) (read : DocumentReader := .yaml) :
    Except (List TextFault) Validation :=
  match Value.parse document read, RuleSet.parse rules read with
  | .ok document, .ok rules =>
    let v := rules.validateSelf document
    .ok { v with report := { v.report with warnings := rules.lint } }
  | .ok _, .error fault => .error [.rules fault]
  | .error fault, .ok _ => .error [.document fault]
  | .error fault, .error fault' => .error [.document fault, .rules fault']

end ForeignKey
