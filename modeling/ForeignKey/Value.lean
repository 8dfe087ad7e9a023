import ForeignKey.Binary64

/-!
# Document values

The tree that documents are read into: scalars, arrays, and objects whose entries keep the order of
the text. A number is an integer or a finite double, as it was written; whether two numbers are the
same is a question for `ForeignKey.Value.Equality`, not for the constructors.
-/

namespace ForeignKey

/-- A number as written: without a point or exponent and within 64 bits it is an integer, otherwise a
double. -/
inductive Number where
  | integer (n : Int)
  | double (d : Binary64)
  deriving DecidableEq

/-- The integers that stay integers when a document is read: those of signed or unsigned 64 bits. -/
def Number.InRange (n : Int) : Prop :=
  -9223372036854775808 ≤ n ∧ n ≤ 18446744073709551615

instance (n : Int) : Decidable (Number.InRange n) := inferInstanceAs (Decidable (_ ∧ _))

/-- A document, or a part of one. -/
inductive Value where
  | null
  | bool (b : Bool)
  | number (n : Number)
  | string (s : String)
  | array (items : List Value)
  | object (entries : List (String × Value))

namespace Value

/-- The elements of an array. -/
def items? : Value → Option (List Value)
  | .array items => some items
  | _ => none

/-- The entries of an object, in the order of the text. -/
def entries? : Value → Option (List (String × Value))
  | .object entries => some entries
  | _ => none

/-- The value under a key in a list of entries. -/
def lookup (key : String) : List (String × Value) → Option Value
  | [] => none
  | (k, v) :: rest => if k = key then some v else lookup key rest

/-- The value under a key; only objects have any. -/
def field? (v : Value) (key : String) : Option Value :=
  match v with
  | .object entries => lookup key entries
  | _ => none

/-- An integer as a value. -/
def ofNat (n : Nat) : Value := .number (.integer n)

/-! ## Looking up -/

@[simp] theorem lookup_nil (key : String) : lookup key [] = none := rfl

theorem lookup_cons (key k : String) (v : Value) (rest : List (String × Value)) :
    lookup key ((k, v) :: rest) = if k = key then some v else lookup key rest := rfl

theorem mem_of_lookup {key : String} {entries : List (String × Value)} {v : Value}
    (h : lookup key entries = some v) : (key, v) ∈ entries := by
  induction entries with
  | nil => simp at h
  | cons e rest ih =>
    obtain ⟨k, w⟩ := e
    rw [lookup_cons] at h
    split at h
    · next hk => obtain rfl := Option.some.inj h; simp [hk]
    · exact List.mem_cons_of_mem _ (ih h)

@[simp] theorem field?_object (entries : List (String × Value)) (key : String) :
    (Value.object entries).field? key = lookup key entries := rfl

end Value

end ForeignKey
