import ForeignKey.Yaml.Node
import ForeignKey.Yaml.Schema
import ForeignKey.Yaml.Token.Lexer

/-!
# Reading YAML

A text that is one YAML document, as a value. Its mappings become objects: the keys must be scalars
that are no nulls, and are taken as they are spelt. Tags count for them as they do for texts, but for
the first key of an object they do not count at all. Two keys are the same if they are spelt the same
and their tags name the same kind. A mapping must not have a key twice; of two keys that only their tags
tell apart the later one gives the value.

The key `<<` merges: the entries of its value, a mapping or a list of such values, come after those of
the mapping itself as far as their keys are not there yet. Of several such mappings the last one comes
first. An entry that is not taken need not have a readable value.
-/

namespace ForeignKey.Yaml

/-! ## Objects -/

/-- Entries with a value under a key: in its place if the key is there, otherwise at the end. -/
def putEntry (key : String) (v : Value) : List (String × Value) → List (String × Value)
  | [] => [(key, v)]
  | (k, w) :: rest => if k = key then (k, v) :: rest else (k, w) :: putEntry key v rest

/-- Putting an entry adds its key at most. -/
theorem keys_putEntry (key : String) (v : Value) (entries : List (String × Value)) :
    (putEntry key v entries).map (·.1)
      = if key ∈ entries.map (·.1) then entries.map (·.1) else entries.map (·.1) ++ [key] := by
  induction entries with
  | nil => rfl
  | cons e rest ih =>
    obtain ⟨k, w⟩ := e
    rw [putEntry]
    by_cases h : k = key
    · simp [h]
    · have hne : ¬key = k := fun heq => h heq.symm
      simp only [h, if_false, List.map_cons, ih, List.mem_cons, hne, false_or]
      split <;> simp

theorem nodup_putEntry {entries : List (String × Value)} (key : String) (v : Value)
    (h : (entries.map (·.1)).Nodup) : ((putEntry key v entries).map (·.1)).Nodup := by
  rw [keys_putEntry]
  split
  · exact h
  · next hkey =>
    refine List.nodup_append.2 ⟨h, by simp, ?_⟩
    intro k hk k' hk' heq
    rw [List.mem_singleton.1 hk'] at heq
    exact hkey (heq ▸ hk)

/-- An entry of a mapping, with the value of its node if there is one. -/
structure MappingEntry where
  key : Node
  value? : Option Value

/-- What tells the keys of a mapping apart. -/
abbrev KeyIdentity := Option TagKind × String

namespace Node

/-- What tells a key from others; keys that are no scalars are never the same. -/
def identity? : Node → Option KeyIdentity
  | .scalar _ kind? text => some (kind?, text)
  | _ => none

/-- The name that a key gives to an entry, which depends on whether it is the first key of its
object. -/
def keyName? (isFirst : Bool) : Node → Option String
  | .scalar style kind? text =>
    if isFirst then firstKeyName? style kind? text else laterKeyName? style kind? text
  | _ => none

end Node

/-- An object that is being read from a mapping: its keys and its entries so far. -/
structure PartialObject where
  keys : List KeyIdentity
  entries : List (String × Value)

namespace PartialObject

/-- The object without entries. -/
def empty : PartialObject := ⟨[], []⟩

/-- Whether a key is there. -/
def has (o : PartialObject) (key : Node) : Bool := key.identity?.any o.keys.contains

/-- The object with an entry added. -/
def add? (o : PartialObject) (e : MappingEntry) : Option PartialObject := do
  let identity ← e.key.identity?
  let name ← e.key.keyName? o.keys.isEmpty
  let v ← e.value?
  some ⟨identity :: o.keys, putEntry name v o.entries⟩

/-- The object with an entry of the mapping itself. -/
def addOwn? (o : PartialObject) (e : MappingEntry) : Option PartialObject :=
  if o.has e.key then none else o.add? e

/-- The object with an entry that is merged. -/
def addMerged? (o : PartialObject) (e : MappingEntry) : Option PartialObject :=
  if o.has e.key then some o else o.add? e

/-- The object for the entries of a mapping and those that it merges. -/
def ofEntries? (own merged : List MappingEntry) : Option PartialObject := do
  merged.foldlM addMerged? (← own.foldlM addOwn? .empty)

/-- Whether no name is given twice. -/
def Distinct (o : PartialObject) : Prop := (o.entries.map (·.1)).Nodup

theorem distinct_empty : empty.Distinct := List.nodup_nil

theorem Distinct.add? {o o' : PartialObject} {e : MappingEntry} (h : o.Distinct)
    (hadd : o.add? e = some o') : o'.Distinct := by
  simp only [PartialObject.add?, Option.bind_eq_bind, Option.bind_eq_some_iff] at hadd
  obtain ⟨_, _, _, _, _, _, hadd⟩ := hadd
  cases hadd
  exact nodup_putEntry _ _ h

theorem foldlM_induction {motive : PartialObject → Prop}
    {step : PartialObject → MappingEntry → Option PartialObject} {es : List MappingEntry}
    (hstep : ∀ e ∈ es, ∀ {o o'}, motive o → step o e = some o' → motive o')
    {o o' : PartialObject} (h : motive o) (hfold : es.foldlM step o = some o') : motive o' := by
  induction es generalizing o with
  | nil => cases hfold; exact h
  | cons e rest ih =>
    rw [List.foldlM_cons, Option.bind_eq_bind, Option.bind_eq_some_iff] at hfold
    obtain ⟨_, hfirst, hrest⟩ := hfold
    rw [List.forall_mem_cons] at hstep
    exact ih hstep.2 (hstep.1 h hfirst) hrest

/-- What the object without entries has, and every addition of an entry keeps, the object for a mapping
has. -/
theorem ofEntries?_induction {motive : PartialObject → Prop} {own merged : List MappingEntry}
    (empty : motive .empty)
    (add : ∀ e ∈ own ++ merged, ∀ {o o'}, motive o → o.add? e = some o' → motive o')
    {o : PartialObject} (h : ofEntries? own merged = some o) : motive o := by
  rw [ofEntries?, Option.bind_eq_bind, Option.bind_eq_some_iff] at h
  obtain ⟨first, hown, hmerged⟩ := h
  have hfirst : motive first := by
    refine foldlM_induction (fun e he o o' ho hstep => ?_) empty hown
    unfold addOwn? at hstep
    split at hstep
    · cases hstep
    · exact add e (List.mem_append_left _ he) ho hstep
  refine foldlM_induction (fun e he o o' ho hstep => ?_) hfirst hmerged
  unfold addMerged? at hstep
  split at hstep
  · cases hstep; exact ho
  · exact add e (List.mem_append_right _ he) ho hstep

/-- The object for a mapping has no name twice. -/
theorem distinct_of_ofEntries? {own merged : List MappingEntry} {o : PartialObject}
    (h : ofEntries? own merged = some o) : o.Distinct :=
  ofEntries?_induction distinct_empty (fun _ _ _ _ ho hadd => ho.add? hadd) h

end PartialObject

/-! ## Values -/

namespace Node

mutual

/-- The value of a node. -/
def toValue? : Node → Option Value
  | .scalar style kind? text => scalarValue? style kind? text
  | .sequence items => (itemValues? items).map .array
  | .mapping entries => do
    let o ← PartialObject.ofEntries? (ownEntries entries) (← mergedEntries? entries)
    some (.object o.entries)

/-- The values of items. -/
def itemValues? : List Node → Option (List Value)
  | [] => some []
  | n :: rest => do
    let v ← n.toValue?
    let vs ← itemValues? rest
    some (v :: vs)

/-- The entries of a mapping without those that merge. -/
def ownEntries : List (Node × Node) → List MappingEntry
  | [] => []
  | (k, n) :: rest => if k.isMergeKey then ownEntries rest else ⟨k, n.toValue?⟩ :: ownEntries rest

/-- The entries that a mapping merges, those of its last merge key first. -/
def mergedEntries? : List (Node × Node) → Option (List MappingEntry)
  | [] => some []
  | (k, n) :: rest => do
    let after ← mergedEntries? rest
    if k.isMergeKey then some (after ++ (← n.contribution?)) else some after

/-- The entries that the value of a merge key stands for: those of a mapping, with what it merges
itself after them, those of the items of a list, or none. -/
def contribution? : Node → Option (List MappingEntry)
  | .scalar style _ text => if looksNull style text then some [] else none
  | .sequence items => contributions? items
  | .mapping entries => do some (ownEntries entries ++ (← mergedEntries? entries))

/-- The entries that items of a list stand for, those of the last item first. -/
def contributions? : List Node → Option (List MappingEntry)
  | [] => some []
  | n :: rest => do
    let after ← contributions? rest
    some (after ++ (← n.contribution?))

end

end Node

end ForeignKey.Yaml

namespace ForeignKey

/-- The value that a YAML text describes, if it is one document. -/
def Value.ofYaml? (text : String) : Option Value := do
  let n ← Yaml.Node.ofTokens? (.ofText (Yaml.readable text.toList))
  n.toValue?

end ForeignKey
