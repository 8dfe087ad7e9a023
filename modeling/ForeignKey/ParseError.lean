/-!
# Parse errors

What is reported about a text that cannot be read as a document or as a rule set.
-/

namespace ForeignKey

/-- The kinds of parse errors. -/
inductive ParseErrorKind where
  /-- The text is not well formed. -/
  | malformed
  /-- The text does not have the shape of a rule set. -/
  | typeMismatch
  /-- The text has a field that a rule set does not know. -/
  | unknownField
  deriving DecidableEq

/-- The name of a kind. -/
def ParseErrorKind.text : ParseErrorKind → String
  | .malformed => "syntax"
  | .typeMismatch => "type_mismatch"
  | .unknownField => "unknown_field"

/-- A parse error, with the number of the line where it is known. -/
structure ParseError where
  kind : ParseErrorKind
  message : String
  path? : Option String
  line? : Option Nat
  deriving DecidableEq

/-- A parse error in one line. -/
def ParseError.text (e : ParseError) : String :=
  match e.line? with
  | some line => "line " ++ toString line ++ ": " ++ e.message
  | none => e.message

end ForeignKey
