import ForeignKey.Parsing
import ForeignKey.Proofs.Value.Equality

/-!
# Identity of values

Whether two values are the same tree, entry for entry and number for number as they are written. It is
finer than value equality, and it makes statements about a tree read from a text decidable.
-/

namespace ForeignKey

namespace Value

mutual

/-- Whether two values are one tree. -/
def same : Value → Value → Bool
  | .null, .null => true
  | .bool a, .bool b => a == b
  | .number a, .number b => decide (a = b)
  | .string a, .string b => a == b
  | .array as, .array bs => sameItems as bs
  | .object as, .object bs => sameEntries as bs
  | _, _ => false
termination_by structural v => v

/-- Whether two lists have the same elements. -/
def sameItems : List Value → List Value → Bool
  | [], [] => true
  | a :: as, b :: bs => same a b && sameItems as bs
  | _, _ => false
termination_by structural items => items

/-- Whether two lists have the same entries. -/
def sameEntries : List (String × Value) → List (String × Value) → Bool
  | [], [] => true
  | a :: as, b :: bs => sameEntry a b && sameEntries as bs
  | _, _ => false
termination_by structural entries => entries

/-- Whether two entries have the same key and the same value. -/
def sameEntry : String × Value → String × Value → Bool
  | (k, v), (l, w) => k == l && same v w
termination_by structural entry => entry

end

theorem sameItems_iff {as bs : List Value} (ih : ∀ a ∈ as, ∀ b, a.same b = true ↔ a = b) :
    sameItems as bs = true ↔ as = bs := by
  induction as generalizing bs with
  | nil => cases bs <;> simp [sameItems]
  | cons a as iha =>
    rw [List.forall_mem_cons] at ih
    cases bs with
    | nil => simp [sameItems]
    | cons b bs => rw [sameItems, Bool.and_eq_true, ih.1, iha ih.2, List.cons.injEq]

theorem sameEntries_iff {as bs : List (String × Value)}
    (ih : ∀ e ∈ as, ∀ b, e.2.same b = true ↔ e.2 = b) :
    sameEntries as bs = true ↔ as = bs := by
  induction as generalizing bs with
  | nil => cases bs <;> simp [sameEntries]
  | cons e as ihe =>
    rw [List.forall_mem_cons] at ih
    cases bs with
    | nil => simp [sameEntries]
    | cons f bs =>
      rw [sameEntries, Bool.and_eq_true, sameEntry, Bool.and_eq_true, ih.1, ihe ih.2, beq_iff_eq,
        List.cons.injEq, Prod.ext_iff]

theorem same_iff {a b : Value} : a.same b = true ↔ a = b := by
  induction a generalizing b with
  | null | bool | number | string => cases b <;> simp [same]
  | array as ih =>
    cases b with
    | array bs => rw [same, sameItems_iff fun a ha b => ih a ha, array.injEq]
    | _ => simp [same]
  | object as ih =>
    cases b with
    | object bs => rw [same, sameEntries_iff fun e he b => ih e he, object.injEq]
    | _ => simp [same]

instance : DecidableEq Value := fun _ _ => decidable_of_iff _ same_iff

theorem toOption_parse_eq_some_iff {text : String} {read : DocumentReader} {v : Value} :
    (Value.parse text read).toOption = some v ↔ Value.parse text read = .ok v := by
  cases Value.parse text read <;> simp [Except.toOption]

instance (text : String) (read : DocumentReader) (v : Value) :
    Decidable (Value.parse text read = .ok v) :=
  decidable_of_iff _ toOption_parse_eq_some_iff

end Value

end ForeignKey
