import ForeignKey.Value

/-!
# Locations

A location is the concrete counterpart of a pattern: a list of keys and indices that leads from a
document to one of its nodes, written `vehicles[0].makeId`. The empty location is the document itself,
written `$`.
-/

namespace ForeignKey

/-- One step of a location. -/
inductive Step where
  | key (name : String)
  | index (i : Nat)
  deriving DecidableEq

/-- A position inside a document. -/
structure Location where
  steps : List Step
  deriving DecidableEq

namespace Location

/-- The document itself. -/
def root : Location := ⟨[]⟩

/-- The same position seen from one step further out. -/
def under (step : Step) (l : Location) : Location := ⟨step :: l.steps⟩

/-- The steps after the first one. -/
def tailText : List Step → String
  | [] => ""
  | .key name :: rest => "." ++ name ++ tailText rest
  | .index i :: rest => "[" ++ toString i ++ "]" ++ tailText rest

/-- The text of a location. Only a key after the first step has a dot before it. -/
def text : Location → String
  | ⟨[]⟩ => "$"
  | ⟨.key name :: rest⟩ => name ++ tailText rest
  | ⟨.index i :: rest⟩ => tailText (.index i :: rest)

end Location

namespace Value

/-- The node that one step leads to. -/
def child? (v : Value) : Step → Option Value
  | .key name => v.field? name
  | .index i => v.items?.bind (·[i]?)

/-- The node that a list of steps leads to. -/
def at? (v : Value) : List Step → Option Value
  | [] => some v
  | step :: rest => (v.child? step).bind (·.at? rest)

end Value

end ForeignKey
