import ForeignKey.Json.Writer
import ForeignKey.Rule

/-!
# Events

What a run reports about its own work: how the candidate cache answered, which values were checked,
which bindings were skipped, and a summary. Events are values; every operation gives those that it
caused, in order, with its result.
-/

namespace ForeignKey

/-- How important an event is. -/
inductive EventLevel where
  | trace
  | debug
  | warn
  deriving DecidableEq

/-- The name of a level. -/
def EventLevel.text : EventLevel → String
  | .trace => "TRACE"
  | .debug => "DEBUG"
  | .warn => "WARN"

/-- Something that happened during a check. -/
inductive Event where
  /-- The document was walked for a union that had no cache entry. -/
  | entryBuilt (patterns : PatternUnion) (values : Nat)
  /-- The cache already had an entry for the union. -/
  | cacheHit (patterns : PatternUnion)
  /-- A value was looked up among the candidates. -/
  | checked (value : Value) (paths : ReferencePaths) (found : Bool)
  /-- A binding without patterns was passed over. -/
  | bindingSkipped (field : String)
  /-- A validation ended. The walks are counted only if it had a context. -/
  | finished (bindings values errors : Nat) (traversals? : Option Nat)

namespace Event

/-- The level of an event. -/
def level : Event → EventLevel
  | .entryBuilt .. => .debug
  | .cacheHit .. => .trace
  | .checked .. => .trace
  | .bindingSkipped .. => .warn
  | .finished .. => .debug

/-- The message of an event. -/
def message : Event → String
  | .entryBuilt .. => "fk cache entry built"
  | .cacheHit .. => "fk cache hit"
  | .checked .. => "fk check"
  | .bindingSkipped .. => "binding lists no fk patterns, skipped"
  | .finished .. => "fk validation finished"

/-- The named details of an event, as texts. -/
def fields : Event → List (String × String)
  | .entryBuilt patterns values => [("key", patterns.text), ("values", toString values)]
  | .cacheHit patterns => [("key", patterns.text)]
  | .checked value paths found =>
    [("value", value.toJson), ("path", paths.text), ("found", if found then "true" else "false")]
  | .bindingSkipped field => [("field", field)]
  | .finished bindings values errors traversals? =>
    [("bindings", toString bindings), ("checked", toString values), ("errors", toString errors)]
      ++ (traversals?.map fun n => ("traversals", toString n)).toList

end Event

end ForeignKey
