import ForeignKey.Report
import ForeignKey.RuleSet

/-!
# Lint

Warnings for patterns that can be read but are probably not what the author meant. For every text of
a rule set the findings come in the order brackets, separators, characters; a binding's field comes
before its reference paths, and a repeated alternative is found last.
-/

namespace ForeignKey

/-- Something suspicious in a rule set. -/
inductive Finding where
  /-- A key segment holds a bracket, as in `items[]`. -/
  | bracketInKey (key : String)
  /-- A text has leading, trailing or repeated dots. -/
  | straySeparators (raw : String)
  /-- A key segment holds a blank, a control character or a character beyond ASCII. -/
  | unusualCharacters (key : String)
  /-- An alternative reads as an earlier one of its binding. -/
  | repeatedAlternative (pattern : Pattern)
  /-- A binding lists no patterns. -/
  | noPatterns

namespace Finding

/-- The code of a finding. -/
def code : Finding → String
  | .bracketInKey _ => "W-001"
  | .straySeparators _ => "W-002"
  | .unusualCharacters _ => "W-003"
  | .repeatedAlternative _ => "W-004"
  | .noPatterns => "W-005"

/-- The message of a finding. -/
def message : Finding → String
  | .bracketInKey key =>
    "segment '" ++ key ++
      "' is treated as a key name; use a separate '[]' segment to fan out over an array"
  | .straySeparators raw =>
    "pattern '" ++ raw ++ "' has stray separators and is read as '" ++ (Pattern.parse raw).text ++ "'"
  | .unusualCharacters key =>
    "segment '" ++ key ++ "' contains whitespace or non-ASCII characters"
  | .repeatedAlternative pattern => "pattern '" ++ pattern.text ++ "' repeats an earlier alternative"
  | .noPatterns => "fk lists no patterns; the binding is never checked"

/-- The warning of a finding at a place of the rule set. -/
def warningAt (path : String) (f : Finding) : Diagnostic := ⟨.warning, f.code, some path, f.message⟩

end Finding

/-! ## One text -/

/-- Whether a key holds a bracket. -/
def holdsBracket (key : String) : Bool := key.toList.any fun c => c = '[' || c = ']'

/-- Whether a key holds visible ASCII characters only. -/
def isPlainKey (key : String) : Bool := key.toList.all fun c => '\x21' ≤ c && c ≤ '\x7e'

/-- Whether a text is not empty and has an empty chunk between its dots. -/
def hasStraySeparators (raw : String) : Bool := raw ≠ "" && (Pattern.chunks raw).contains []

/-- The findings for one text of a rule set. -/
def textFindings (raw : String) : List Finding :=
  let keys := (Pattern.parse raw).keys
  (keys.filter holdsBracket).map .bracketInKey
    ++ (if hasStraySeparators raw then [.straySeparators raw] else [])
    ++ (keys.filter fun key => !isPlainKey key).map .unusualCharacters

/-! ## The reference paths of a binding -/

/-- The place of the field text of the binding at an index. -/
def fieldPlace (i : Nat) : String := "references[" ++ toString i ++ "].field"

/-- The place of the reference paths of the binding at an index. -/
def pathsPlace (i : Nat) : String := "references[" ++ toString i ++ "].fk"

/-- The place of one reference path: a list of alternatives has one for each. -/
def pathPlace (paths : ReferencePaths) (i j : Nat) : String :=
  match paths with
  | .single _ => pathsPlace i
  | .alternatives _ => pathsPlace i ++ "[" ++ toString j ++ "]"

/-- The warnings for alternatives from index `j` on, after those that read as `seen`. -/
def lintPaths (place : Nat → String) : Nat → List Pattern → List String → List Diagnostic
  | _, _, [] => []
  | j, seen, raw :: rest =>
    let pattern := Pattern.parse raw
    let repeated := if seen.contains pattern then [.repeatedAlternative pattern] else []
    (textFindings raw ++ repeated).map (Finding.warningAt (place j))
      ++ lintPaths place (j + 1) (pattern :: seen) rest

/-- The warnings for the binding at an index. -/
def Binding.lint (b : Binding) (i : Nat) : List Diagnostic :=
  (textFindings b.field).map (Finding.warningAt (fieldPlace i))
    ++ (if b.paths.raws = [] then [Finding.noPatterns.warningAt (pathsPlace i)] else [])
    ++ lintPaths (pathPlace b.paths i) 0 [] b.paths.raws

/-- The warnings for a rule set. -/
def RuleSet.lint (rules : RuleSet) : List Diagnostic :=
  rules.references.zipIdx.flatMap fun (b, i) => b.lint i

end ForeignKey
