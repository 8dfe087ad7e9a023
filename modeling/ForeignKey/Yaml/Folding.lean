/-!
# Line folding

A scalar within the lines of a document may go on over several lines. What stands between two of its
words is a gap: blanks within a line stay as they are, a single line break becomes a space, and of
several breaks all but the first stay. In double quotes a line end can be escaped; it then counts for
nothing itself.
-/

namespace ForeignKey.Yaml

/-- What has been met since the last character of a scalar. -/
inductive Gap where
  /-- Blanks within the line. -/
  | blanks (cs : List Char)
  /-- A line break followed by a number of empty lines. -/
  | lines (empty : Nat)
  /-- An escaped line break followed by a number of empty lines. -/
  | joint (empty : Nat)

namespace Gap

/-- Nothing between two characters. -/
def nothing : Gap := .blanks []

/-- Whether the characters on both sides are adjacent. -/
def isNothing : Gap → Bool
  | .blanks [] => true
  | _ => false

/-- Whether a gap holds a line break. -/
def crossesLines : Gap → Bool
  | .blanks _ => false
  | _ => true

/-- Whether a gap is a line end that is not escaped, after which a line begins anew. -/
def startsLine : Gap → Bool
  | .lines _ => true
  | _ => false

/-- A gap with one more blank. The blanks around line breaks do not count. -/
def blank (c : Char) : Gap → Gap
  | .blanks cs => .blanks (cs ++ [c])
  | gap => gap

/-- A gap with one more line break. -/
def lineBreak : Gap → Gap
  | .blanks _ => .lines 0
  | .lines empty => .lines (empty + 1)
  | .joint empty => .joint (empty + 1)

/-- What a gap contributes to the scalar. -/
def text : Gap → List Char
  | .blanks cs => cs
  | .lines 0 => [' ']
  | .lines empty => List.replicate empty '\n'
  | .joint empty => List.replicate empty '\n'

end Gap

end ForeignKey.Yaml
