import ForeignKey.Decimal.Notation
import ForeignKey.Text.Encoding
import ForeignKey.Value

/-!
# JSON text

Values are written as compact JSON: no spaces, entries in the order of the object, and in strings only
the escapes that JSON demands. Everything a message quotes of a document goes through
`Value.toJson`.
-/

namespace ForeignKey

namespace Json

/-- A character inside a JSON string: quote, backslash and the control characters are escaped, with
their short escapes where JSON has one. -/
def escapeChar (c : Char) : String :=
  if c = '\x22' then "\\\""
  else if c = '\\' then "\\\\"
  else if c = '\x08' then "\\b"
  else if c = '\t' then "\\t"
  else if c = '\n' then "\\n"
  else if c = '\x0c' then "\\f"
  else if c = '\x0d' then "\\r"
  else if c.toNat < 32 then "\\u" ++ String.ofList (Hex.numeral Hex.lowerDigit 4 c.toNat)
  else String.ofList [c]

/-- A JSON string with its quotes. -/
def quote (s : String) : String :=
  "\"" ++ s.toList.foldl (fun text c => text ++ escapeChar c) "" ++ "\""

end Json

/-- The text of a number: an integer in decimal, a double by its shortest digits. -/
def Number.toJson : Number → String
  | .integer n => toString n
  | .double d => Notation.json.text d

namespace Value

mutual

/-- The compact JSON text of a value. -/
def toJson : Value → String
  | .null => "null"
  | .bool true => "true"
  | .bool false => "false"
  | .number n => n.toJson
  | .string s => Json.quote s
  | .array items => "[" ++ itemsJson items ++ "]"
  | .object entries => "\x7b" ++ entriesJson entries ++ "\x7d"
termination_by structural v => v

/-- The elements of an array, separated by commas. -/
def itemsJson : List Value → String
  | [] => ""
  | [v] => toJson v
  | v :: w :: rest => toJson v ++ "," ++ itemsJson (w :: rest)
termination_by structural items => items

/-- The entries of an object, separated by commas. -/
def entriesJson : List (String × Value) → String
  | [] => ""
  | [entry] => entryJson entry
  | entry :: next :: rest => entryJson entry ++ "," ++ entriesJson (next :: rest)
termination_by structural entries => entries

/-- A key and its value. -/
def entryJson : String × Value → String
  | (key, v) => Json.quote key ++ ":" ++ toJson v
termination_by structural entry => entry

end

/-- A value in a message: a string bare, everything else as JSON. -/
def display : Value → String
  | .string s => s
  | v => v.toJson

end Value

end ForeignKey
