import ForeignKey.ParseError
import ForeignKey.RuleSet.Form
import ForeignKey.Text
import ForeignKey.Yaml.Reader

/-!
# Documents and rule sets from text

A text is read as one YAML document, of which JSON is a special case. A text of white space alone is
refused, and so is one in which a second line separates documents; the number of that line is part of
the error. All other texts are left to a reader of single documents, whose errors are passed on in its own
words. A rule set is a document of its own shape.
-/

namespace ForeignKey

/-- Why a text cannot be read. -/
inductive ParseFault where
  /-- The text is white space. -/
  | blank
  /-- The text holds several documents; the line is the one with the second separator. -/
  | severalDocuments (line : Nat)
  /-- The text is not one YAML document, in the words of its reader. -/
  | malformed (message : String := "malformed YAML")
  /-- The document is no object, so it is no rule set. -/
  | notMapping
  /-- The document does not have the shape of a rule set. -/
  | shape (e : ShapeError)

namespace ParseFault

/-- The text that makes the message of a shape error count as one about an unknown field, wherever the
message has it from. -/
def unknownFieldMark : List Char := "unknown field".toList

/-- The kind of a shape error, which is taken from its message. -/
def kindOfMessage (message : String) : ParseErrorKind :=
  if Text.contains unknownFieldMark (Text.lowered message.toList) then .unknownField
  else .typeMismatch

/-- The error for a fault. -/
def error : ParseFault → ParseError
  | .blank => ⟨.malformed, "empty input", none, none⟩
  | .severalDocuments line =>
    ⟨.malformed, "multi-document YAML is not supported", none, some line⟩
  | .malformed message => ⟨.malformed, message, none, none⟩
  | .notMapping => ⟨.typeMismatch, "rule set root must be a mapping", none, none⟩
  | .shape e => ⟨kindOfMessage e.message, e.message, none, none⟩

end ParseFault

/-! ## Documents -/

/-- The dashes that separate documents. -/
def separatorMark : List Char := ['-', '-', '-']

/-- Whether a line separates documents: dashes at its start with only white space after them. -/
def isSeparator (line : List Char) : Bool :=
  separatorMark.isPrefixOf line && Text.isBlank (line.drop separatorMark.length)

/-- The numbers of the lines that separate documents, counted from one. A carriage return at the end of
a line is white space. -/
def separatorLines (text : String) : List Nat :=
  ((Text.split '\n' text.toList).zipIdx 1).filterMap fun (line, number) =>
    if isSeparator line then some number else none

/-- A reader of single documents: it gives the tree of a text, or says what is wrong with the text. -/
abbrev DocumentReader := String → Except String Value

/-- Reads YAML. -/
def DocumentReader.yaml : DocumentReader := fun text =>
  (Value.ofYaml? text).elim (.error "malformed YAML") .ok

/-- Reads a document. -/
def Value.parse (text : String) (read : DocumentReader := .yaml) : Except ParseFault Value :=
  if Text.isBlank text.toList then .error .blank
  else
    match separatorLines text with
    | _ :: second :: _ => .error (.severalDocuments second)
    | _ => (read text).mapError fun message => .malformed message

/-! ## Rule sets -/

/-- Reads a rule set. -/
def RuleSet.parse (text : String) (read : DocumentReader := .yaml) : Except ParseFault RuleSet :=
  match Value.parse text read with
  | .error fault => .error fault
  | .ok (.object entries) => (RuleSet.ofValue (.object entries)).mapError .shape
  | .ok _ => .error .notMapping

end ForeignKey
