import Std.Data.HashSet
import ForeignKey.Value.Equality

/-!
# Candidate values

The values that a reference may take, in the order in which they were pushed, with a fast membership
test. A scalar is looked up by its key in a hash set; an array or an object is compared with the
composite candidates only, whose positions are kept. Both together answer what one scan over all
values would.
-/

namespace ForeignKey

/-- Values with an index for membership: the keys of the scalars among them and the positions of the
others. -/
structure Candidates where
  values : Array Value
  scalars : Std.HashSet ScalarKey
  composites : Array Nat

namespace Candidates

/-- No candidates. -/
def empty : Candidates := ⟨#[], ∅, #[]⟩

/-- Adds a value at the end. -/
def push (c : Candidates) (v : Value) : Candidates :=
  match v.scalarKey? with
  | some key => { c with values := c.values.push v, scalars := c.scalars.insert key }
  | none => { c with values := c.values.push v, composites := c.composites.push c.values.size }

/-- Whether a value equal to `v` was pushed. -/
def contains (c : Candidates) (v : Value) : Bool :=
  match v.scalarKey? with
  | some key => c.scalars.contains key
  | none =>
    c.composites.any fun i =>
      match c.values[i]? with
      | some candidate => candidate.equal v
      | none => false

/-- The number of values, repetitions included. -/
def size (c : Candidates) : Nat := c.values.size

/-- Whether there are no candidates. -/
def isEmpty (c : Candidates) : Bool := c.values.isEmpty

/-- The values in the order in which they were pushed. -/
def toList (c : Candidates) : List Value := c.values.toList

/-- The candidates of a list. -/
def ofList (vs : List Value) : Candidates := vs.foldl push empty

/-! ## The values of each operation -/

@[simp] theorem toList_empty : empty.toList = [] := rfl

@[simp] theorem toList_push (c : Candidates) (v : Value) : (c.push v).toList = c.toList ++ [v] := by
  unfold push toList
  split <;> simp

theorem toList_foldl_push (c : Candidates) (vs : List Value) :
    (vs.foldl push c).toList = c.toList ++ vs := by
  induction vs generalizing c with
  | nil => simp
  | cons v vs ih => simp [ih]

@[simp] theorem toList_ofList (vs : List Value) : (ofList vs).toList = vs := by
  simp [ofList, toList_foldl_push]

theorem size_eq_length (c : Candidates) : c.size = c.toList.length := by simp [size, toList]

end Candidates

end ForeignKey
