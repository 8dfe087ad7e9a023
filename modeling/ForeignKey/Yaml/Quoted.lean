import ForeignKey.Text.Encoding
import ForeignKey.Yaml.Cursor
import ForeignKey.Yaml.Folding

/-!
# Reading quoted scalars

In single quotes a quote is written twice and every other character stands for itself. In double
quotes a backslash begins an escape: a short one, the number of a character in a fixed count of
hexadecimal digits, or an escaped line end.

Both fold their lines, which outside flow collections must be indented.

The text is read one character a step; the state says what the last characters have begun.
-/

namespace ForeignKey.Yaml

/-- The character of a short escape. -/
def shortEscape? (c : Char) : Option Char :=
  [('0', '\x00'), ('a', '\x07'), ('b', '\x08'), ('t', '\t'), ('\t', '\t'), ('n', '\n'), ('v', '\x0b'),
    ('f', '\x0c'), ('r', '\x0d'), ('e', '\x1b'), (' ', ' '), ('\x22', '\x22'), ('/', '/'),
    ('\\', '\\'), ('N', '\u0085'), ('_', '\u00A0'), ('L', '\u2028'), ('P', '\u2029')].lookup c

/-- The number of digits of a hexadecimal escape. -/
def escapeWidth? (c : Char) : Option Nat := [('x', 2), ('u', 4), ('U', 8)].lookup c

/-- The two kinds of quotes. -/
inductive Quote where
  | single
  | double
  deriving DecidableEq

/-- The character of a quote. -/
def Quote.char : Quote → Char
  | .single => '\x27'
  | .double => '\x22'

/-- What the characters just read have begun. -/
inductive QuotedState where
  /-- Nothing but a gap. -/
  | text (gap : Gap)
  /-- An escape, after its backslash. -/
  | escape
  /-- A hexadecimal escape with the given number of digits to come, and the number that those before
  them spell. -/
  | digits (left value : Nat)

/-- Whether a scalar cannot go on with a character after a gap: a word at the start of a line must not
limit a document, and outside flow collections it must be indented. A quote needs no indentation, and
neither does what follows an escaped line end. -/
def endsQuoted (quote : Quote) (inFlow : Bool) (indent : Int) (gap : Gap) (c : Char) (rest : List Char)
    (p : Position) : Bool :=
  (gap.crossesLines && p.column == 0 && startsLimit (c :: rest))
    || (gap.startsLine && !inFlow && c != quote.char && decide (p.column ≤ indent))

/-- The scalar that goes on here up to its closing quote, and where it ends, given the column of the
block around it. -/
def readQuoted? (quote : Quote) (inFlow : Bool) (indent : Int) :
    List Char → Position → QuotedState → Option (List Char × Cursor)
  | [], _, _ => none
  | c :: rest, p, .escape =>
    if c = '\n' then readQuoted? quote inFlow indent rest (p.pass c) (.text (.joint 0))
    else
      match escapeWidth? c with
      | some width => readQuoted? quote inFlow indent rest (p.pass c) (.digits width 0)
      | none => do
        let e ← shortEscape? c
        let (text, after) ← readQuoted? quote inFlow indent rest (p.pass c) (.text .nothing)
        some (e :: text, after)
  | c :: rest, p, .digits left value => do
    let value := value * 16 + (← Hex.digitValue? c)
    if 1 < left then readQuoted? quote inFlow indent rest (p.pass c) (.digits (left - 1) value)
    else
      let e ← Hex.char? value
      let (text, after) ← readQuoted? quote inFlow indent rest (p.pass c) (.text .nothing)
      some (e :: text, after)
  | c :: rest, p, .text gap =>
    if c = '\n' then readQuoted? quote inFlow indent rest (p.pass c) (.text gap.lineBreak)
    else if isBlank c then
      if c = '\t' ∧ gap.crossesLines ∧ p.column < indent then none
      else readQuoted? quote inFlow indent rest (p.pass c) (.text (gap.blank c))
    else if endsQuoted quote inFlow indent gap c rest p then none
    else if c = quote.char then
      match quote, rest with
      | .single, '\x27' :: more =>
        (readQuoted? quote inFlow indent more ((p.pass c).pass c) (.text .nothing)).map fun (text, after) =>
          (gap.text ++ c :: text, after)
      | _, _ => some (gap.text, ⟨rest, p.pass c⟩)
    else if quote = .double ∧ c = '\\' then
      (readQuoted? quote inFlow indent rest (p.pass c) .escape).map fun (text, after) =>
        (gap.text ++ text, after)
    else
      (readQuoted? quote inFlow indent rest (p.pass c) (.text .nothing)).map fun (text, after) =>
        (gap.text ++ c :: text, after)

/-- A quoted scalar from its opening quote on. -/
def Cursor.quoted? (quote : Quote) (inFlow : Bool) (indent : Int) (cursor : Cursor) :
    Option (List Char × Cursor) :=
  let inside := cursor.skip 1
  readQuoted? quote inFlow indent inside.rest inside.position (.text .nothing)

end ForeignKey.Yaml
