import ForeignKey.Pattern.Evaluation

/-!
# Unions of patterns

A non-empty list of alternative patterns, evaluated together: what it reaches is what its patterns
reach, one after the other. Two unions are equal when they hold the same patterns in the same order,
however those were written, and equal unions share an entry of the candidate cache.
-/

namespace ForeignKey

/-- Alternative patterns in the order of their declaration. -/
structure PatternUnion where
  patterns : List Pattern
  nonempty : patterns ≠ []
  deriving DecidableEq

namespace PatternUnion

/-- The union of a list of patterns, which must not be empty. -/
def ofList? (patterns : List Pattern) : Option PatternUnion :=
  if h : patterns = [] then none else some ⟨patterns, h⟩

/-- What is wrong with an empty list of patterns. -/
def emptyMessage : String := "a reference needs at least one path pattern"

/-- The union of one pattern. -/
def singleton (p : Pattern) : PatternUnion := ⟨[p], by simp⟩

/-- The patterns as a list of quoted texts. -/
def text (u : PatternUnion) : String :=
  "[" ++ String.intercalate ", " (u.patterns.map fun p => "\"" ++ p.text ++ "\"") ++ "]"

/-- Every value that some pattern reaches, in the order of the patterns; a value that several reach
is repeated. -/
def collect (u : PatternUnion) (document : Value) : List Value :=
  u.patterns.flatMap (·.collect document)

theorem ofList?_eq_none_iff {patterns : List Pattern} : ofList? patterns = none ↔ patterns = [] := by
  simp [ofList?]

theorem patterns_of_ofList? {patterns : List Pattern} {u : PatternUnion}
    (h : ofList? patterns = some u) : u.patterns = patterns := by
  unfold ofList? at h
  split at h
  · cases h
  · exact (Option.some.inj h) ▸ rfl

end PatternUnion

end ForeignKey
