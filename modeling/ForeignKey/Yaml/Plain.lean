import ForeignKey.Yaml.Cursor
import ForeignKey.Yaml.Folding

/-!
# Reading plain scalars

A plain scalar is a text without quotes. It ends before a colon that ends a word, before a comment, and
in a flow collection before the characters that delimit one. It goes on over lines as long as they are
indented enough and do not begin or end a document. A line in which a tab stands before the indentation
is reached must be empty but for a comment; then the scalar can go on after it.
-/

namespace ForeignKey.Yaml

/-- Whether a plain scalar cannot go on with this character, wherever it stands. -/
def endsPlain (inFlow : Bool) (c : Char) (rest : List Char) : Bool :=
  (c == ':' && (endsWord rest || (inFlow && startsFlowMark rest))) || (inFlow && isFlowMark c)

/-- Whether a plain scalar cannot go on with a word that begins here. Outside flow collections a word
must stand at column `limit` or further right. -/
def endsBeforeWord (inFlow : Bool) (limit : Int) (cs : List Char) (p : Position) : Bool :=
  (!inFlow && decide (p.column < limit)) || (p.column == 0 && startsLimit cs) || cs.head? == some '#'

/-- Whether a word is a dash right before the end of a flow item, which is not allowed. -/
def isLoneDash (inFlow : Bool) (c : Char) (rest : List Char) : Bool :=
  inFlow && c == '-' && startsFlowMark rest

/-- The plain scalar that goes on here after a gap, and where it ends. The gap after its last word does
not belong to it. `isVoid` tells that the rest of the line is passed over. -/
def readPlain? (inFlow : Bool) (limit : Int) :
    List Char → Position → Gap → Bool → Option (List Char × Cursor)
  | [], p, _, _ => some ([], ⟨[], p⟩)
  | c :: rest, p, gap, isVoid =>
    if c = '\n' then readPlain? inFlow limit rest (p.pass c) gap.lineBreak false
    else if isVoid then readPlain? inFlow limit rest (p.pass c) gap true
    else if isBlank c then
      let isTooEarly := c == '\t' && gap.crossesLines && decide (p.column < limit)
      if isTooEarly && !isVoidLine rest then none
      else readPlain? inFlow limit rest (p.pass c) (gap.blank c) isTooEarly
    else if !gap.isNothing && endsBeforeWord inFlow limit (c :: rest) p then
      some ([], ⟨c :: rest, p⟩)
    else if !gap.isNothing && isLoneDash inFlow c rest then none
    else if endsPlain inFlow c rest then some ([], ⟨c :: rest, p⟩)
    else
      (readPlain? inFlow limit rest (p.pass c) .nothing false).map fun (text, after) =>
        (gap.text ++ c :: text, after)

/-- A plain scalar, given the column of the block around it. It is not empty, and in a flow collection
it must stand further right than the block. -/
def Cursor.plain? (inFlow : Bool) (indent : Int) (cursor : Cursor) : Option (List Char × Cursor) :=
  match cursor.rest with
  | [] => none
  | c :: rest =>
    if isLoneDash inFlow c rest || (inFlow && decide (cursor.column < indent + 1)) then none
    else
      (readPlain? inFlow (indent + 1) cursor.rest cursor.position .nothing false).filter (!·.1.isEmpty)

end ForeignKey.Yaml
