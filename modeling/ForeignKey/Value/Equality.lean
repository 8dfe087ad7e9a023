import ForeignKey.Value

/-!
# Equality of values

Two values are the same when they have the same kind and the same content. Numbers are compared by
the rational they denote, so the integer `42` equals the double `42.0` and both zeros are one number;
the order of the entries of an object does not count; nothing else is coerced.

Scalars have a *key*, a value of a type with decidable equality and a hash, such that two scalars are
equal exactly when their keys are. The membership test of `ForeignKey.Candidates` rests on it.
-/

namespace ForeignKey

/-! ## Keys of scalars -/

/-- What identifies a number under value equality. -/
inductive NumberKey where
  | integer (n : Int)
  | double (d : Binary64)
  deriving DecidableEq, Hashable

namespace Number

/-- The double nearest to `10 ^ 38`. An integral double below it in magnitude is identified by its
integer; the larger ones lie beyond every 64-bit integer and stay doubles. -/
def integralLimit : Nat := 99999999999999997748809823456034029568

/-- The key of a number: one integer has one key, however it is written. -/
def key : Number → NumberKey
  | .integer n => .integer n
  | .double d =>
    match d.integral? with
    | some n => if n.natAbs < integralLimit then .integer n else .double d
    | none => .double d

end Number

/-- What identifies a scalar under value equality. -/
inductive ScalarKey where
  | null
  | bool (b : Bool)
  | number (n : NumberKey)
  | string (s : String)
  deriving DecidableEq, Hashable

namespace Value

/-- The key of a scalar; arrays and objects have none. -/
def scalarKey? : Value → Option ScalarKey
  | .null => some .null
  | .bool b => some (.bool b)
  | .number n => some (.number n.key)
  | .string s => some (.string s)
  | .array _ => none
  | .object _ => none

/-! ## Equality -/

mutual

/-- Whether two values are the same. -/
def equal : Value → Value → Bool
  | .null, .null => true
  | .bool a, .bool b => a == b
  | .number a, .number b => a.key == b.key
  | .string a, .string b => a == b
  | .array as, .array bs => equalItems as bs
  | .object as, .object bs => as.length == bs.length && entriesWithin as bs
  | _, _ => false
termination_by structural v => v

/-- Arrays are compared element by element. -/
def equalItems : List Value → List Value → Bool
  | [], [] => true
  | a :: as, b :: bs => equal a b && equalItems as bs
  | _, _ => false
termination_by structural items => items

/-- Every entry of the first object is in the second under the same key. -/
def entriesWithin : List (String × Value) → List (String × Value) → Bool
  | [], _ => true
  | entry :: rest, bs => entryWithin entry bs && entriesWithin rest bs
termination_by structural entries => entries

/-- The second object has an equal value under the key of the entry. -/
def entryWithin : String × Value → List (String × Value) → Bool
  | (key, v), bs =>
    match lookup key bs with
    | some w => equal v w
    | none => false
termination_by structural entry => entry

end

/-! ## Scalars -/

/-- Two scalars are equal exactly when their keys are. -/
theorem equal_iff_scalarKey {a b : Value} {ka kb : ScalarKey}
    (ha : a.scalarKey? = some ka) (hb : b.scalarKey? = some kb) :
    a.equal b = true ↔ ka = kb := by
  cases a <;> cases b <;> simp_all [scalarKey?, equal] <;> subst ha <;> subst hb <;> simp

end Value

end ForeignKey
