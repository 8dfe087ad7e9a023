import ForeignKey.Text
import ForeignKey.Yaml.Style

/-!
# Block scalars

The bodies of literal and folded blocks as lists of lines, without their indentation, and the header
before them. A folded body is wrapped at runs of spaces; reading it back gives one space for each
break, so a run of several keeps all but one of its spaces at the end of the line.
-/

namespace ForeignKey.Yaml

/-! ## Literal blocks -/

/-- The lines of a literal body. Of the line feeds at the end the first ends the last line, and each
further one is an empty line; a text of line feeds alone has a single empty line. -/
def literalLines (cs : List Char) : List (List Char) :=
  let content := dropBreaks cs
  if content.isEmpty then [[]]
  else Text.split '\n' content ++ List.replicate (cs.length - content.length - 1) []

/-- The chomping indicator: how many line feeds end the text. -/
def chomping (cs : List Char) : String :=
  match cs.length - (dropBreaks cs).length with
  | 0 => "-"
  | 1 => ""
  | _ => "+"

/-- Whether the header must tell the indentation, because the first line that is not empty begins with
a space. -/
def needsIndentDigit (cs : List Char) : Bool :=
  match cs.dropWhile (· = '\n') with
  | ' ' :: _ => true
  | _ => false

/-! ## Folded blocks -/

/-- The state of wrapping: the text of the current line up to its last finished run of spaces with the
length of that run, the text after it, the spaces at the end of that, and the column. A run is
finished once something else follows it. -/
structure Wrapping where
  before? : Option (List Char × Nat)
  after : List Char
  openRun : Nat
  column : Nat

namespace Wrapping

/-- The start of a text. -/
def start : Wrapping := ⟨none, [], 0, 0⟩

/-- The text of the current line. -/
def line (w : Wrapping) : List Char :=
  match w.before? with
  | some (before, run) => before ++ List.replicate run ' ' ++ w.after
  | none => w.after

/-- Takes up one character. -/
def push (w : Wrapping) (c : Char) : Wrapping :=
  if c = ' ' then ⟨w.before?, w.after ++ [c], w.openRun + 1, w.column + 1⟩
  else if w.openRun = 0 then ⟨w.before?, w.after ++ [c], 0, w.column + 1⟩
  else
    let line := w.line
    ⟨some (line.take (line.length - w.openRun), w.openRun), [c], 0, w.column + 1⟩

end Wrapping

/-- Wraps the rest of a text. A line that passes the width is broken at its last finished run of
spaces, and the column counts anew from there on; without such a run the rest stays as it is. -/
def wrapFrom (w : Wrapping) : List Char → List (List Char)
  | [] => [w.line]
  | c :: rest =>
    let w := w.push c
    if w.column ≤ maxWidth then wrapFrom w rest
    else
      match w.before? with
      | none => [w.line ++ rest]
      | some (before, run) =>
        (before ++ List.replicate (run - 1) ' ')
          :: wrapFrom ⟨none, w.after, w.openRun, 0⟩ rest

/-- The lines of a folded body. -/
def foldedLines (cs : List Char) : List (List Char) :=
  match cs with
  | ' ' :: _ => [cs]
  | _ => wrapFrom .start cs

end ForeignKey.Yaml
