import ForeignKey.Json.Writer
import ForeignKey.Text.Printable

/-!
# Reading records from values

The structures of this library have a serialized form, a value. Reading one back checks its shape,
and the first fault that is met is the error: the entries of an object are read in their own order,
and only then are missing fields looked for, in the order of their declaration. A record may also be
given as an array of its fields in that order.

A `Field` says how one field is read and what its absence means. A `RecordShape` lists the fields of a
record and gives the entries of a value once they have passed.
-/

namespace ForeignKey

/-! ## What can be wrong -/

/-- What a reader asks for. -/
inductive Shape where
  | text
  | list
  | count
  | record (name : String)
  | choice
  | nothing
  deriving DecidableEq

/-- The wording of a shape in a message. -/
def Shape.expected : Shape → String
  | .text => "a string"
  | .list => "a sequence"
  | .count => "usize"
  | .record name => "struct " ++ name
  | .choice => "string or map"
  | .nothing => "unit"

/-- Why a value does not have the shape of what it is read as. -/
inductive ShapeError where
  | wrongKind (found : Value) (expected : Shape)
  | negativeCount (n : Int)
  /-- A choice was given as an object with no entry or with several. -/
  | notOneKey
  /-- The array form of a record ends before a field that has no default. -/
  | tooShort (record : String) (size index : Nat)
  /-- The array form of a record goes on after its last field. -/
  | tooLong (length : Nat)
  | unknownField (name : String) (known : List String)
  | unknownChoice (name : String) (known : List String)
  | missingField (name : String)
  /-- A list of reference paths is empty. -/
  | noPaths
  /-- An entry of a list of reference paths is no text. -/
  | pathNotText (entry : Value)
  /-- Reference paths are neither a text nor a list. -/
  | notPaths (found : Value)

/-- How a message names a value that it did not expect. -/
def Value.described : Value → String
  | .null => "null"
  | .bool b => "boolean `" ++ (if b then "true" else "false") ++ "`"
  | .number (.integer n) => "integer `" ++ toString n ++ "`"
  | .number (.double d) => "floating point `" ++ Notation.json.text d ++ "`"
  | .string s => "string " ++ Text.shown s
  | .array _ => "sequence"
  | .object _ => "map"

/-- The names that a message offers. -/
def offered (names : List String) : String :=
  let quoted := names.map fun name => "`" ++ name ++ "`"
  match quoted with
  | [only] => only
  | [first, second] => first ++ " or " ++ second
  | _ => "one of " ++ String.intercalate ", " quoted

/-- The message of a shape error. -/
def ShapeError.message : ShapeError → String
  | .wrongKind found expected =>
    "invalid type: " ++ found.described ++ ", expected " ++ expected.expected
  | .negativeCount n => "invalid value: integer `" ++ toString n ++ "`, expected usize"
  | .notOneKey => "invalid value: map, expected map with a single key"
  | .tooShort record size index =>
    "invalid length " ++ toString index ++ ", expected struct " ++ record ++ " with " ++ toString size
      ++ (if size = 1 then " element" else " elements")
  | .tooLong length =>
    "invalid length " ++ toString length ++ ", expected fewer elements in array"
  | .unknownField name known => "unknown field `" ++ name ++ "`, expected " ++ offered known
  | .unknownChoice name known => "unknown variant `" ++ name ++ "`, expected " ++ offered known
  | .missingField name => "missing field `" ++ name ++ "`"
  | .noPaths => "fk path list must contain at least one pattern"
  | .pathNotText entry => "fk path list entries must be strings, got " ++ entry.toJson
  | .notPaths found => "fk path must be a string or a list of strings, got " ++ found.toJson

/-! ## Single values -/

/-- The outcome of reading a value. -/
abbrev Reading := Except ShapeError

/-- Reads a text. -/
def readText : Value → Reading String
  | .string s => .ok s
  | v => .error (.wrongKind v .text)

/-- Reads a number of things. -/
def readCount : Value → Reading Nat
  | .number (.integer n) => if 0 ≤ n then .ok n.toNat else .error (.negativeCount n)
  | v => .error (.wrongKind v .count)

/-- Reads a list of things. -/
def readList {α : Type} (read : Value → Reading α) : Value → Reading (List α)
  | .array items => items.mapM read
  | v => .error (.wrongKind v .list)

/-- Reads something that may be null. -/
def readOptional {α : Type} (read : Value → Reading α) : Value → Reading (Option α)
  | .null => .ok none
  | v => (read v).map some

/-- The alternative with a name. -/
def pick {α : Type} (choices : List (String × α)) (name : String) : Reading α :=
  match choices.lookup name with
  | some a => .ok a
  | none => .error (.unknownChoice name (choices.map (·.1)))

/-- Reads one of several named alternatives: its name, or an object from its name to null. -/
def readChoice {α : Type} (choices : List (String × α)) : Value → Reading α
  | .string name => pick choices name
  | .object [(name, content)] =>
    match pick choices name, content with
    | .error e, _ => .error e
    | .ok a, .null => .ok a
    | .ok _, v => .error (.wrongKind v .nothing)
  | .object _ => .error .notOneKey
  | v => .error (.wrongKind v .choice)

/-! ## Records -/

/-- What it means that a field is not given. -/
inductive Absence (α : Type) where
  /-- It is an error. -/
  | refused
  /-- It has a default in an object, but the array form must hold it. -/
  | inObjects (default : α)
  /-- It has a default. -/
  | allowed (default : α)

/-- A field of a record. -/
structure Field (α : Type) where
  name : String
  read : Value → Reading α
  absence : Absence α

namespace Field

/-- A field that must be given. -/
def required {α : Type} (name : String) (read : Value → Reading α) : Field α := ⟨name, read, .refused⟩

/-- A field that may be null, and left out of objects. -/
def optional {α : Type} (name : String) (read : Value → Reading α) : Field (Option α) :=
  ⟨name, readOptional read, .inObjects none⟩

/-- A field that may be left out. -/
def defaulted {α : Type} (name : String) (read : Value → Reading α) (default : α) : Field α :=
  ⟨name, read, .allowed default⟩

/-- Reads the field from the entries of a record. -/
def get {α : Type} (f : Field α) (entries : List (String × Value)) : Reading α :=
  match Value.lookup f.name entries with
  | some v => f.read v
  | none =>
    match f.absence with
    | .refused => .error (.missingField f.name)
    | .inObjects default => .ok default
    | .allowed default => .ok default

end Field

/-- A field without the type of what it holds. -/
structure FieldShape where
  name : String
  check : Value → Reading Unit
  mayLackInObject : Bool
  mayLackInArray : Bool

/-- Forgets what a field holds. -/
def Field.shape {α : Type} (f : Field α) : FieldShape where
  name := f.name
  check v := (f.read v).map fun _ => ()
  mayLackInObject :=
    match f.absence with
    | .refused => false
    | _ => true
  mayLackInArray :=
    match f.absence with
    | .allowed _ => true
    | _ => false

/-- The fields of a record in the order of their declaration. A closed record refuses others. -/
structure RecordShape where
  name : String
  closed : Bool
  fields : List FieldShape

namespace RecordShape

/-- The names of the fields. -/
def names (r : RecordShape) : List String := r.fields.map (·.name)

/-- Checks one entry. -/
def checkEntry (r : RecordShape) (name : String) (v : Value) : Reading Unit :=
  match r.fields.find? (·.name = name) with
  | some field => field.check v
  | none => if r.closed then .error (.unknownField name r.names) else .ok ()

/-- Checks the entries in their order. -/
def checkEntries (r : RecordShape) : List (String × Value) → Reading Unit
  | [] => .ok ()
  | (name, v) :: rest =>
    match r.checkEntry name v with
    | .error e => .error e
    | .ok () => r.checkEntries rest

/-- The first field that an object must have and does not. -/
def missing? (r : RecordShape) (entries : List (String × Value)) : Option FieldShape :=
  r.fields.find? fun field => !field.mayLackInObject && (Value.lookup field.name entries).isNone

/-- The index of the first field that an array of the given length must have and does not. -/
def shortAt? (r : RecordShape) (length : Nat) : Option Nat :=
  (r.fields.zipIdx.find? fun (field, i) => length ≤ i && !field.mayLackInArray).map (·.2)

/-- The entries of a record, from its object or array form. Their fields can be read. -/
def entries (r : RecordShape) : Value → Reading (List (String × Value))
  | .object entries => do
    r.checkEntries entries
    match r.missing? entries with
    | some field => .error (.missingField field.name)
    | none => .ok entries
  | .array items => do
    let entries := r.names.zip items
    r.checkEntries entries
    match r.shortAt? items.length with
    | some i => .error (.tooShort r.name r.fields.length i)
    | none =>
      if r.fields.length < items.length then .error (.tooLong items.length) else .ok entries
  | v => .error (.wrongKind v (.record r.name))

end RecordShape

end ForeignKey
