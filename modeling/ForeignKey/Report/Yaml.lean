import ForeignKey.Decimal.Notation
import ForeignKey.Report.Form
import ForeignKey.Yaml.Block

/-!
# Reports as YAML

A report for people: the violations first, then the warnings, each in the order in which it was found.

Values are written in block style with two spaces a level. A collection under a key starts on the next
line; an element that is a collection starts on the line of its dash. Empty collections are written in
flow style, on the line of their key or dash, except that under a key they take a line of their own
if what was written last is the end of a block. That is a matter of the whole text, so the writer
passes it along: `Written.afterBlock`.
-/

namespace ForeignKey.Yaml

/-! ## Scalars -/

/-- A character inside double quotes. -/
def escapeChar (c : Char) : String :=
  if c = '\\' then "\\\\"
  else if c = '\x22' then "\\\""
  else if c.toNat = 0x00 then "\\0"
  else if c.toNat = 0x07 then "\\a"
  else if c.toNat = 0x08 then "\\b"
  else if c.toNat = 0x09 then "\\t"
  else if c.toNat = 0x0A then "\\n"
  else if c.toNat = 0x0B then "\\v"
  else if c.toNat = 0x0C then "\\f"
  else if c.toNat = 0x0D then "\\r"
  else if c.toNat = 0x1B then "\\e"
  else if c.toNat = 0xFEFF then "\\uFEFF"
  else if c.toNat = 0x85 then "\\N"
  else if c.toNat = 0x2028 then "\\L"
  else if c.toNat = 0x2029 then "\\P"
  else if isControl c then "\\x" ++ String.ofList (Hex.numeral Hex.upperDigit 2 c.toNat)
  else String.ofList [c]

/-- A character of a quoted key. -/
def escapeKeyChar (c : Char) : String :=
  if c = '\\' then "\\\\"
  else if c = '\x22' then "\\\""
  else if c = '\n' then "\\n"
  else if c = '\x0d' then "\\r"
  else if c = '\t' then "\\t"
  else if isControl c then "\\u" ++ String.ofList (Hex.numeral Hex.upperDigit 4 c.toNat)
  else String.ofList [c]

/-- A text between double quotes. -/
def quoted (escape : Char → String) (cs : List Char) : String :=
  "\"" ++ cs.foldl (fun text c => text ++ escape c) "" ++ "\""

/-- A text within its line. -/
def inlineText (cs : List Char) : String :=
  match ScalarStyle.inline cs with
  | .singleQuoted => "'" ++ String.ofList cs ++ "'"
  | .plain => String.ofList cs
  | _ => quoted escapeChar cs

/-- A key. -/
def keyText (key : String) : String :=
  if isPlainKey key.toList then key else quoted escapeKeyChar key.toList

/-- An indentation. -/
def margin (indent : Nat) : String := String.ofList (List.replicate indent ' ')

/-- A block with its header. The indentation of its body can be told by one digit only; a block that
would need more is no answer. -/
def blockText? (mark : String) (indent : Nat) (cs : List Char) (lines : List (List Char)) :
    Option String :=
  let body := lines.foldl (fun text line => text ++ margin indent ++ String.ofList line ++ "\n") ""
  if !needsIndentDigit cs then some (mark ++ chomping cs ++ "\n" ++ body)
  else if indent ≤ 9 then some (mark ++ toString indent ++ chomping cs ++ "\n" ++ body)
  else none

/-- A text with the break after it, belonging to a key or dash at an indentation. -/
def textLines (indent : Nat) (s : String) : String :=
  let cs := s.toList
  let block? :=
    match ScalarStyle.of cs with
    | .literal => blockText? "|" (indent + 2) cs (literalLines cs)
    | .folded => blockText? ">" (indent + 2) cs (foldedLines cs)
    | _ => none
  block?.getD (inlineText cs ++ "\n")

/-- A number. -/
def numberText : Number → String
  | .integer n => toString n
  | .double d => Notation.yaml.text d

/-! ## Collections -/

/-- A piece of the text, and whether the last thing written is the end of a block. -/
structure Written where
  text : String
  afterBlock : Bool

/-- A scalar under a key or dash at an indentation. -/
def scalar (text : String) : Written := ⟨text, false⟩

/-- An empty collection under a key. -/
def emptyUnderKey (indent : Nat) (afterBlock : Bool) (brackets : String) : Written :=
  ⟨(if afterBlock then "\n" ++ margin (indent + 2) else " ") ++ brackets ++ "\n", false⟩

mutual

/-- An element after its dash. -/
def writeItem (indent : Nat) (afterBlock : Bool) : Value → Written
  | .null => scalar "null\n"
  | .bool b => scalar (if b then "true\n" else "false\n")
  | .number n => scalar (numberText n ++ "\n")
  | .string s => scalar (textLines indent s)
  | .array [] => ⟨"[]\n", afterBlock⟩
  | .object [] => ⟨"\x7b\x7d\n", afterBlock⟩
  | .array items => ⟨(writeItems (indent + 2) "" afterBlock items).text, true⟩
  | .object entries => ⟨(writeEntries (indent + 2) "" false entries).text, true⟩
termination_by structural v => v

/-- A value after its key and colon. -/
def writeContent (indent : Nat) (afterBlock : Bool) : Value → Written
  | .null => scalar " null\n"
  | .bool b => scalar (if b then " true\n" else " false\n")
  | .number n => scalar (" " ++ numberText n ++ "\n")
  | .string s => scalar (" " ++ textLines indent s)
  | .array [] => emptyUnderKey indent afterBlock "[]"
  | .object [] => emptyUnderKey indent afterBlock "\x7b\x7d"
  | .array items =>
    ⟨"\n" ++ (writeItems (indent + 2) (margin (indent + 2)) false items).text, true⟩
  | .object entries =>
    ⟨"\n" ++ (writeEntries (indent + 2) (margin (indent + 2)) false entries).text, true⟩
termination_by structural v => v

/-- The elements of an array, the first one after `first`, the others on lines of their own. -/
def writeItems (indent : Nat) (first : String) (afterBlock : Bool) : List Value → Written
  | [] => ⟨"", afterBlock⟩
  | v :: rest =>
    let item := writeItem indent afterBlock v
    let others := writeItems indent (margin indent) item.afterBlock rest
    ⟨first ++ "- " ++ item.text ++ others.text, others.afterBlock⟩
termination_by structural items => items

/-- The entries of an object, the first one after `first`, the others on lines of their own. -/
def writeEntries (indent : Nat) (first : String) (afterBlock : Bool) :
    List (String × Value) → Written
  | [] => ⟨"", afterBlock⟩
  | entry :: rest =>
    let e := writeEntry indent afterBlock entry
    let others := writeEntries indent (margin indent) e.afterBlock rest
    ⟨first ++ e.text ++ others.text, others.afterBlock⟩
termination_by structural entries => entries

/-- A key with its value. -/
def writeEntry (indent : Nat) (afterBlock : Bool) : String × Value → Written
  | (key, v) =>
    let content := writeContent indent afterBlock v
    ⟨keyText key ++ ":" ++ content.text, content.afterBlock⟩
termination_by structural entry => entry

end

end ForeignKey.Yaml

namespace ForeignKey

/-- The YAML text of a value, which always ends a line. -/
def Value.toYaml : Value → String
  | .array (v :: rest) => (Yaml.writeItems 0 "" false (v :: rest)).text
  | .object (entry :: rest) => (Yaml.writeEntries 0 "" false (entry :: rest)).text
  | v => (Yaml.writeItem 0 false v).text

/-- The YAML text of a report. -/
def Report.toYaml (r : Report) : String := r.toValue.toYaml

end ForeignKey
