/-!
# Places in a YAML text

Reading goes over a text in one form: without a byte order mark in front and with a line feed for every
line break. A cursor is the rest of such a text together with the line and the column at which it
starts, since in YAML the column of a token decides what it belongs to.
-/

namespace ForeignKey.Yaml

/-! ## The form of a text -/

/-- A text with a line feed for every line break: carriage return, line feed, or both together. -/
def unifyBreaks : List Char → List Char
  | [] => []
  | '\x0d' :: '\n' :: rest => '\n' :: unifyBreaks rest
  | '\x0d' :: rest => '\n' :: unifyBreaks rest
  | c :: rest => c :: unifyBreaks rest

/-- A text without the byte order mark before it, which may be given twice. -/
def dropMark : List Char → List Char
  | '\uFEFF' :: '\uFEFF' :: rest => rest
  | '\uFEFF' :: rest => rest
  | cs => cs

/-- The text that is read. -/
def readable (cs : List Char) : List Char := unifyBreaks (dropMark cs)

/-! ## What stands at a place -/

/-- The characters that separate words within a line. -/
def isBlank (c : Char) : Bool := c == ' ' || c == '\t'

/-- The characters that delimit flow collections and their items. -/
def isFlowMark (c : Char) : Bool := [',', '[', ']', '\x7b', '\x7d'].contains c

/-- The characters of names. -/
def isNameChar (c : Char) : Bool := c.isAlphanum || c == '_' || c == '-'

/-- Whether a line ends here. -/
def endsLine : List Char → Bool
  | [] => true
  | c :: _ => c == '\n'

/-- Whether a word ends here. -/
def endsWord : List Char → Bool
  | [] => true
  | c :: _ => c == '\n' || isBlank c

/-- Whether a character that delimits flow collections comes next. -/
def startsFlowMark : List Char → Bool
  | [] => false
  | c :: _ => isFlowMark c

/-- Whether the rest of the line holds nothing but blanks and a comment. -/
def isVoidLine (cs : List Char) : Bool :=
  match cs.dropWhile isBlank with
  | [] => true
  | c :: _ => c == '\n' || c == '#'

/-- Whether a tab comes after spaces, line breaks and comments. -/
def startsTab (inComment : Bool) : List Char → Bool
  | [] => false
  | c :: rest =>
    if c = '\n' then startsTab false rest
    else if inComment ∨ c = '#' then startsTab true rest
    else if c = ' ' then startsTab false rest
    else c == '\t'

/-- Whether a word of three equal characters comes next. At the start of a line three dashes begin a
document and three dots end one. -/
def startsTriple (c : Char) (cs : List Char) : Bool :=
  List.isPrefixOf [c, c, c] cs && endsWord (cs.drop 3)

/-- Whether the limit of a document comes next. -/
def startsLimit (cs : List Char) : Bool := startsTriple '-' cs || startsTriple '.' cs

/-! ## Places -/

/-- A place in a text. -/
structure Position where
  line : Nat
  column : Nat
  /-- Whether the line holds only blanks before the place. -/
  leading : Bool
  deriving DecidableEq

namespace Position

/-- The place of the first character. -/
def start : Position := ⟨0, 0, true⟩

/-- The place after a character. -/
def pass (p : Position) (c : Char) : Position :=
  if c = '\n' then ⟨p.line + 1, 0, true⟩ else ⟨p.line, p.column + 1, p.leading && isBlank c⟩

end Position

/-- The rest of a text and the place where it starts. -/
structure Cursor where
  rest : List Char
  position : Position

namespace Cursor

/-- The column of a cursor. -/
def column (c : Cursor) : Nat := c.position.column

/-- The line of a cursor. -/
def line (c : Cursor) : Nat := c.position.line

/-- Passes some characters. -/
def skip : Nat → Cursor → Cursor
  | 0, cursor => cursor
  | _ + 1, ⟨[], p⟩ => ⟨[], p⟩
  | n + 1, ⟨c :: rest, p⟩ => skip n ⟨rest, p.pass c⟩

/-- Passes the characters that satisfy a test, up to the first one that does not. -/
def skipWhile (test : Char → Bool) (cursor : Cursor) : Cursor :=
  cursor.skip (cursor.rest.takeWhile test).length

/-- Passes the rest of the line, but not its break. -/
def skipLine (cursor : Cursor) : Cursor := cursor.skipWhile (· ≠ '\n')

/-- Passes some lines with their breaks. -/
def skipLines : Nat → Cursor → Cursor
  | 0, cursor => cursor
  | n + 1, cursor => skipLines n (cursor.skipLine.skip 1)

/-- Passes blanks and a comment after a token. A comment needs a blank before it. -/
def skipMargin? (cursor : Cursor) : Option Cursor :=
  let after := cursor.skipWhile isBlank
  match after.rest with
  | '#' :: _ => if cursor.rest.head? = some '#' then none else some after.skipLine
  | _ => some after

end Cursor

/-! ## Between tokens -/

/-- Passes everything between two tokens: blanks, line breaks and comments. A tab must not stand
among the first `indent` columns of a line that goes on with something else. -/
def skipBetween? (indent : Int) : Bool → List Char → Position → Option Cursor
  | _, [], p => some ⟨[], p⟩
  | inComment, c :: rest, p =>
    if c = '\n' then skipBetween? indent false rest (p.pass c)
    else if inComment ∨ c = '#' then skipBetween? indent true rest (p.pass c)
    else if c = '\t' ∧ p.leading ∧ p.column < indent ∧ ¬isVoidLine rest then none
    else if isBlank c then skipBetween? indent false rest (p.pass c)
    else some ⟨c :: rest, p⟩

end ForeignKey.Yaml
