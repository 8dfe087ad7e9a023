import ForeignKey.Text

/-!
# Path patterns

A pattern such as `makes.[].models.[].id` is a list of segments between dots. A segment is the name of
a key, which descends into an object, or `[]`, which fans out over the elements of an array; the
pattern without segments addresses the document itself.

Reading a pattern never fails: the empty chunks that leading, trailing or repeated dots leave are
dropped. So a key segment is never empty, never holds a dot and is never `[]`, and the type says so;
`parse` is the only way in that is needed.
-/

namespace ForeignKey

/-- One step of a pattern. -/
inductive Segment where
  /-- Descends into an object. -/
  | key (name : String)
  /-- Fans out over the elements of an array. -/
  | each
  deriving DecidableEq

namespace Segment

/-- The text of the fan-out segment. -/
def eachText : String := "[]"

/-- The text of a segment. -/
def text : Segment → String
  | .key name => name
  | .each => eachText

/-- The segment of a chunk between dots; an empty chunk is none. -/
def ofChunk? (chunk : List Char) : Option Segment :=
  if chunk = [] then none
  else if chunk = eachText.toList then some .each
  else some (.key (String.ofList chunk))

/-- Whether a segment can be written in a pattern: a key must not be empty, hold a dot or look like
the fan-out. -/
def Writable : Segment → Prop
  | .key name => name ≠ "" ∧ '.' ∉ name.toList ∧ name ≠ eachText
  | .each => True

theorem writable_of_ofChunk? {chunk : List Char} {s : Segment} (h : ofChunk? chunk = some s)
    (hdot : '.' ∉ chunk) : s.Writable := by
  unfold ofChunk? at h
  split at h
  · cases h
  · next hempty =>
    split at h
    · cases h; trivial
    · next heach =>
      obtain rfl := Option.some.inj h
      refine ⟨?_, by simpa using hdot, ?_⟩
      · intro hs
        exact hempty (by simpa using congrArg String.toList hs)
      · intro hs
        exact heach (by simpa using congrArg String.toList hs)

end Segment

/-- A list of segments, each as it can be written. -/
structure Pattern where
  segments : List Segment
  writable : ∀ s ∈ segments, s.Writable
  deriving DecidableEq

namespace Pattern

/-- The separator of segments. -/
def separator : Char := '.'

/-- The pattern that addresses the document itself. -/
def root : Pattern := ⟨[], by simp⟩

/-- The chunks between the dots of a raw text, empty ones included. -/
def chunks (raw : String) : List (List Char) := Text.split separator raw.toList

/-- Reads a pattern. -/
def parse (raw : String) : Pattern where
  segments := (chunks raw).filterMap Segment.ofChunk?
  writable s hs := by
    obtain ⟨chunk, hc, hs⟩ := List.mem_filterMap.1 hs
    exact Segment.writable_of_ofChunk? hs (Text.not_mem_of_mem_split hc)

/-- The text of a pattern: its segments with single dots between them. -/
def text (p : Pattern) : String :=
  String.ofList (Text.join separator (p.segments.map fun s => s.text.toList))

/-- Whether a pattern addresses the document itself. -/
def isRoot (p : Pattern) : Bool := p.segments.isEmpty

/-- Whether a pattern fans out somewhere. -/
def fansOut (p : Pattern) : Bool := p.segments.contains .each

/-- The names of the key segments, in order. -/
def keys (p : Pattern) : List String :=
  p.segments.filterMap fun
    | .key name => some name
    | .each => none

@[ext] theorem ext {p q : Pattern} (h : p.segments = q.segments) : p = q := by
  cases p; cases q; simp_all

theorem parse_segments (raw : String) :
    (parse raw).segments = (chunks raw).filterMap Segment.ofChunk? := rfl

end Pattern

end ForeignKey
