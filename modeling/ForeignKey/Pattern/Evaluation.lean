import ForeignKey.Location
import ForeignKey.Pattern
import ForeignKey.Value.Equality

/-!
# Evaluating patterns

What a pattern reaches in a document, asked in three ways: does a given value occur there, which
values occur there, and where. Evaluation never fails: a segment that does not fit the node it meets
(a missing key, a key on a scalar, a fan-out on an object) reaches nothing.

All three recurse over the segments. The values come in the order of the traversal, so arrays are
walked from front to back and a pattern without a fan-out reaches at most one.
-/

namespace ForeignKey

namespace Segment

/-- Whether `value` is at an end of the segments, starting from a node. -/
def occurs (value : Value) : List Segment → Value → Bool
  | [], node => node.equal value
  | .each :: rest, node =>
    match node.items? with
    | some items => items.any (occurs value rest)
    | none => false
  | .key name :: rest, node =>
    match node.field? name with
    | some child => occurs value rest child
    | none => false

/-- The nodes at the ends of the segments. -/
def reached : List Segment → Value → List Value
  | [], node => [node]
  | .each :: rest, node =>
    match node.items? with
    | some items => items.flatMap (reached rest)
    | none => []
  | .key name :: rest, node =>
    match node.field? name with
    | some child => reached rest child
    | none => []

/-- The nodes at the ends of the segments with their locations, seen from the starting node. -/
def located : List Segment → Value → List (Location × Value)
  | [], node => [(.root, node)]
  | .each :: rest, node =>
    match node.items? with
    | some items =>
      items.zipIdx.flatMap fun (item, i) =>
        (located rest item).map fun (l, v) => (l.under (.index i), v)
    | none => []
  | .key name :: rest, node =>
    match node.field? name with
    | some child => (located rest child).map fun (l, v) => (l.under (.key name), v)
    | none => []

end Segment

namespace Pattern

/-- Whether a value occurs at a place that the pattern describes. -/
def occurs (p : Pattern) (value document : Value) : Bool := Segment.occurs value p.segments document

/-- Every value that the pattern reaches, in the order of the traversal. -/
def collect (p : Pattern) (document : Value) : List Value := Segment.reached p.segments document

/-- Every value that the pattern reaches, with the place where it stands. -/
def locate (p : Pattern) (document : Value) : List (Location × Value) :=
  Segment.located p.segments document

theorem occurs_root (value document : Value) : root.occurs value document = document.equal value :=
  rfl

end Pattern

end ForeignKey
