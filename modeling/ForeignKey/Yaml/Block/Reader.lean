import ForeignKey.Text
import ForeignKey.Yaml.Cursor

/-!
# Reading block scalars

A block scalar takes the lines below its header as they are, less their common indentation. Empty
lines, those of blanks within the indentation, belong to it wherever they stand; it ends before the
first other line with less indentation. In a folded block the break between two lines becomes a space
if neither of them begins with a blank and no empty line stands between them.

The header may tell what becomes of the line breaks at the end, and the indentation relative to the
block around the scalar. The indentation is otherwise that of the first line that is not empty. Outside
all other blocks there need not be any, but only literal blocks may do without.
-/

namespace ForeignKey.Yaml

/-! ## Headers -/

/-- What becomes of the line breaks at the end of a block. -/
inductive Chomping where
  /-- None is kept. -/
  | strip
  /-- The one that ends the last line is kept. -/
  | clip
  /-- All are kept. -/
  | keep
  deriving DecidableEq

/-- The chomping that an indicator asks for. -/
def Chomping.ofIndicator? (c : Char) : Option Chomping := [('-', .strip), ('+', .keep)].lookup c

/-- What the header of a block tells. -/
structure BlockHeader where
  chomping : Chomping
  indentation? : Option Nat

/-- Whether a character can stand in a header. -/
def BlockHeader.isIndicator (c : Char) : Bool := c.isDigit || (Chomping.ofIndicator? c).isSome

/-- A header of at most one chomping indicator and one digit other than zero, in any order. -/
def BlockHeader.ofIndicators? : List Char → Option BlockHeader
  | [] => some ⟨.clip, none⟩
  | [c] =>
    match Chomping.ofIndicator? c with
    | some chomping => some ⟨chomping, none⟩
    | none => (digit? c).map (⟨.clip, some ·⟩)
  | [c, d] =>
    match Chomping.ofIndicator? c, Chomping.ofIndicator? d with
    | some chomping, none => (digit? d).map (⟨chomping, some ·⟩)
    | none, some chomping => (digit? c).map (⟨chomping, some ·⟩)
    | _, _ => none
  | _ => none
where
  digit? (c : Char) : Option Nat := if '1' ≤ c ∧ c ≤ '9' then some (c.toNat - 48) else none

/-! ## Bodies -/

/-- The number of spaces at the front of a line. -/
def leadingSpaces (line : List Char) : Nat := (line.takeWhile (· = ' ')).length

/-- The indentation of a block whose header does not tell it, from the lines below the header: that of
the widest among the empty lines in front and the line after them, and more than the block around. -/
def detectIndentation (parent : Int) (lines : List (List Char)) : Nat :=
  let empty := lines.takeWhile (·.all (· = ' '))
  let widths := (empty ++ (lines.drop empty.length).take 1).map leadingSpaces
  widths.foldl max (parent + 1).toNat

/-- How the lines of a block end. -/
inductive BlockEnd where
  /-- A line with less indentation follows. -/
  | dedented
  /-- The text ends after the given number of characters in its last line. -/
  | endOfText (column : Nat)

/-- The lines of a block without their indentation, each with the number of empty lines before it. -/
structure BlockBody where
  lines : List (Nat × List Char)
  /-- The number of empty lines at the end. -/
  trailing : Nat
  /-- Whether the last line is ended by a break. -/
  isBroken : Bool
  /-- The number of lines of the text that the block takes up. -/
  taken : Nat
  ending : BlockEnd

/-- The body of a block with the given indentation, after some empty lines. The last of the lines is
the one that no break ends. -/
def readBody (indentation : Nat) : Nat → List (List Char) → BlockBody
  | empty, [] => ⟨[], empty, false, 0, .endOfText 0⟩
  | empty, line :: more =>
    let blanks := min indentation (leadingSpaces line)
    let content := line.drop blanks
    if content.isEmpty then
      if more.isEmpty then ⟨[], empty, false, 1, .endOfText blanks⟩
      else
        let body := readBody indentation (empty + 1) more
        { body with taken := body.taken + 1 }
    else if blanks < indentation ∨ (indentation = 0 ∧ startsTriple '.' line) then
      ⟨[], empty, false, 0, .dedented⟩
    else if more.isEmpty then ⟨[(empty, content)], 0, false, 1, .endOfText line.length⟩
    else
      let body := readBody indentation 0 more
      { body with
        lines := (empty, content) :: body.lines
        isBroken := body.lines.isEmpty || body.isBroken
        taken := body.taken + 1 }

/-! ## Texts -/

/-- What stands between two lines of a block with some empty lines between them. -/
def blockJoint (folded : Bool) (before after : List Char) (empty : Nat) : List Char :=
  let startsBlank (line : List Char) : Bool := line.head?.any isBlank
  if folded && !startsBlank before && !startsBlank after then
    if empty = 0 then [' '] else List.replicate empty '\n'
  else List.replicate (empty + 1) '\n'

/-- The lines of a block after a line. -/
def joinLinesAfter (folded : Bool) (before : List Char) : List (Nat × List Char) → List Char
  | [] => []
  | (empty, line) :: more =>
    blockJoint folded before line empty ++ line ++ joinLinesAfter folded line more

/-- The lines of a block as one text. Empty lines in front stay. -/
def joinLines (folded : Bool) : List (Nat × List Char) → List Char
  | [] => []
  | (empty, line) :: more => List.replicate empty '\n' ++ line ++ joinLinesAfter folded line more

namespace BlockBody

/-- The number of line breaks that clipping leaves after the last line. A text that ends within the
indentation of a line counts as having a break there. -/
def clippedBreaks (indentation : Nat) (body : BlockBody) : Nat :=
  let atEnd :=
    match body.ending with
    | .dedented => 0
    | .endOfText column => if max indentation 1 ≤ column then 1 else 0
  (if body.isBroken then 1 else 0) + atEnd

/-- The number of line breaks after the last line. A block at the end of the text that has no line but
empty ones has a break of its own. -/
def finalBreaks (chomping : Chomping) (indentation : Nat) (body : BlockBody) : Nat :=
  match chomping, body.lines, body.ending with
  | .strip, _, _ => 0
  | .clip, [], .endOfText _ => 1
  | .keep, [], .endOfText _ => max 1 body.trailing
  | .clip, _, _ => body.clippedBreaks indentation
  | .keep, _, _ => body.clippedBreaks indentation + body.trailing

/-- The text of a block. -/
def text (folded : Bool) (chomping : Chomping) (indentation : Nat) (body : BlockBody) : List Char :=
  joinLines folded body.lines ++ List.replicate (body.finalBreaks chomping indentation) '\n'

end BlockBody

/-- A block that has been read. -/
structure BlockScalar where
  text : List Char
  indentation : Nat
  /-- The place after the block. -/
  after : Cursor

/-- Whether the lines of a block stand at the very left, which only lines that are not empty can. -/
def BlockScalar.isFlush (block : BlockScalar) : Bool :=
  block.indentation == 0 && !Text.isBlank block.text

/-- A block scalar from its indicator on, given the column of the block around it. The body must not
begin with a tab, and its first line must not stand between that column and the indentation. -/
def Cursor.blockScalar? (folded : Bool) (parent : Int) (cursor : Cursor) : Option BlockScalar := do
  let afterMark := cursor.skip 1
  let indicators := afterMark.rest.takeWhile BlockHeader.isIndicator
  let header ← BlockHeader.ofIndicators? indicators
  let margin ← (afterMark.skip indicators.length).skipMargin?
  match margin.rest with
  | [] => some ⟨[], 0, margin⟩
  | '\n' :: below =>
    let lines := Text.split '\n' below
    let indentation :=
      match header.indentation? with
      | some n => (max parent 0).toNat + n
      | none => detectIndentation parent lines
    let body := readBody indentation 0 lines
    let isMisplaced (line : List Char) : Bool :=
      leadingSpaces line < indentation && decide (parent < leadingSpaces line)
    if below.head? = some '\t' then none
    else if body.lines.isEmpty && (lines.drop body.taken).head?.any isMisplaced then none
    else
      let text := body.text folded header.chomping indentation
      some ⟨text, indentation, (margin.skip 1).skipLines body.taken⟩
  | _ => none

end ForeignKey.Yaml
