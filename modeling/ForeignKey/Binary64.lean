/-!
# Finite binary64 numbers

A finite IEEE 754 double, kept as the three fields of its bit pattern: sign, biased exponent and
fraction. The exponent field stops short of 2047, so infinities and NaN have no representation and
every value denotes one dyadic rational, `± significand * 2 ^ scale`.

Two values are equal exactly when their bit patterns are, so the two zeros differ here. Whether two
numbers *denote* the same rational is asked through `integral?` and the value equality built on it.
-/

namespace ForeignKey

/-- A finite double by the fields of its bit pattern. -/
structure Binary64 where
  negative : Bool
  exponent : Fin 2047
  fraction : Fin (Nat.pow 2 52)
  deriving DecidableEq, Hashable

namespace Binary64

/-- The fields `0`: positive zero. -/
def zero : Binary64 := ⟨false, ⟨0, by decide⟩, ⟨0, by decide⟩⟩

/-- The double with the other sign. -/
def neg (d : Binary64) : Binary64 := { d with negative := !d.negative }

/-- The integer part of the scientific form: the fraction with its hidden bit, which subnormal
numbers (exponent field `0`) lack. -/
def significand (d : Binary64) : Nat :=
  if d.exponent.val = 0 then d.fraction.val else Nat.pow 2 52 + d.fraction.val

/-- The power of two that the significand is multiplied by. -/
def scale (d : Binary64) : Int :=
  if d.exponent.val = 0 then -1074 else (d.exponent.val : Int) - 1075

/-- Puts the sign of `d` before a magnitude. -/
def signed (d : Binary64) (magnitude : Nat) : Int :=
  if d.negative then -(magnitude : Int) else magnitude

/-- The integer that a double denotes, if it denotes one. Both zeros denote `0`. -/
def integral? (d : Binary64) : Option Int :=
  if 0 ≤ d.scale then some (d.signed (d.significand * Nat.pow 2 d.scale.toNat))
  else
    let unit := Nat.pow 2 (-d.scale).toNat
    if d.significand % unit = 0 then some (d.signed (d.significand / unit)) else none

/-- The magnitude of a double as an exact quotient, numerator and denominator. -/
def magnitude (d : Binary64) : Nat × Nat :=
  (d.significand * Nat.pow 2 d.scale.toNat, Nat.pow 2 (-d.scale).toNat)

/-! ## Fields of a known range -/

theorem significand_lt (d : Binary64) : d.significand < Nat.pow 2 53 := by
  have h := d.fraction.isLt
  have hidden : Nat.pow 2 53 = Nat.pow 2 52 + Nat.pow 2 52 := rfl
  unfold significand
  split <;> omega

end Binary64

end ForeignKey
