import Mathlib.Algebra.Order.Field.Power
import Mathlib.Data.Rat.Cast.Order
import Mathlib.Tactic.Linarith
import Mathlib.Tactic.NormNum
import Mathlib.Tactic.Positivity
import Mathlib.Tactic.Ring
import Mathlib.Tactic.SplitIfs
import ForeignKey.Binary64

/-!
# The rational of a double

A finite double denotes one rational, its signed significand times a power of two. Apart from the two
zeros no rational is denoted twice: a significand has fewer than 54 bits, and 53 of them unless the scale
is the least one, so neither the scale nor the significand has a choice. Which doubles denote integers is
one division with remainder.
-/

namespace ForeignKey.Binary64

variable {d e : Binary64}

/-- The rational number that a double denotes. -/
def toRat (d : Binary64) : ℚ := d.signed d.significand * 2 ^ d.scale

/-! ## Fields -/

theorem scale_ge (d : Binary64) : -1074 ≤ d.scale := by
  unfold scale
  split <;> omega

/-- Above the least scale the hidden bit is there. -/
theorem le_significand_of_scale (h : -1074 < d.scale) : 2 ^ 52 ≤ d.significand := by
  have hexponent : d.exponent.val ≠ 0 := by
    intro hzero
    simp [scale, hzero] at h
  rw [significand, if_neg hexponent]
  exact Nat.le_add_right _ _

/-- The scale and the significand tell the fields apart: a subnormal number has the scale of the least
normal ones, but not their hidden bit. -/
theorem fields_eq (hscale : d.scale = e.scale) (hsignificand : d.significand = e.significand) :
    d.exponent = e.exponent ∧ d.fraction = e.fraction := by
  have hd := d.fraction.isLt
  have he := e.fraction.isLt
  rw [Fin.ext_iff, Fin.ext_iff]
  unfold scale at hscale
  unfold significand at hsignificand
  split_ifs at hscale hsignificand <;> omega

theorem abs_signed (d : Binary64) (n : Nat) : |d.signed n| = n := by
  unfold signed
  split <;> simp

theorem signed_mul (d : Binary64) (m n : Nat) : d.signed (m * n) = d.signed m * n := by
  unfold signed
  split <;> push_cast <;> ring

theorem abs_toRat (d : Binary64) : |d.toRat| = d.significand * 2 ^ d.scale := by
  have hsigned : |(d.signed d.significand : ℚ)| = d.significand := by
    exact_mod_cast congrArg (Int.cast : Int → ℚ) (d.abs_signed d.significand)
  rw [toRat, abs_mul, hsigned, abs_of_pos (zpow_pos two_pos _)]

theorem toRat_zero : zero.toRat = 0 := by
  have hsigned : zero.signed zero.significand = 0 := by decide
  rw [toRat, hsigned, Int.cast_zero, zero_mul]

theorem toRat_neg (d : Binary64) : d.neg.toRat = -d.toRat := by
  have hsigned : d.neg.signed d.significand = -d.signed d.significand := by
    unfold signed neg
    cases d.negative <;> simp
  show (d.neg.signed d.significand : ℚ) * 2 ^ d.scale = _
  rw [hsigned, Int.cast_neg, neg_mul, toRat]

/-! ## No rational is denoted twice -/

/-- With a greater scale the significand would have to be shorter than it can be. -/
theorem scale_le_of_abs_toRat_eq (h : |d.toRat| = |e.toRat|) : e.scale ≤ d.scale := by
  by_contra hlt
  have hscale : d.scale + 1 ≤ e.scale := by omega
  have hd : (d.significand : ℚ) < 2 ^ 53 := by exact_mod_cast d.significand_lt
  have he : (2 : ℚ) ^ 52 ≤ e.significand := by
    exact_mod_cast le_significand_of_scale (lt_of_le_of_lt d.scale_ge (by omega))
  have hpow : (2 : ℚ) ^ d.scale * 2 ≤ 2 ^ e.scale := by
    rw [← zpow_add_one₀ two_ne_zero]
    exact zpow_le_zpow_right₀ one_le_two hscale
  have hpos : (0 : ℚ) < 2 ^ d.scale := zpow_pos two_pos _
  rw [abs_toRat, abs_toRat] at h
  nlinarith

theorem eq_of_toRat_eq (h : d.toRat = e.toRat) (hne : d.toRat ≠ 0) : d = e := by
  have habs : |d.toRat| = |e.toRat| := congrArg abs h
  have hscale : d.scale = e.scale :=
    le_antisymm (scale_le_of_abs_toRat_eq habs.symm) (scale_le_of_abs_toRat_eq habs)
  have hpow : (2 : ℚ) ^ e.scale ≠ 0 := zpow_ne_zero _ two_ne_zero
  have hsignificand : d.significand = e.significand := by
    rw [abs_toRat, abs_toRat, hscale] at habs
    exact_mod_cast mul_right_cancel₀ hpow habs
  have hsigned : d.signed e.significand = e.signed e.significand := by
    rw [toRat, toRat, hscale, hsignificand] at h
    exact_mod_cast mul_right_cancel₀ hpow h
  have hpositive : e.significand ≠ 0 := by
    intro hzero
    rw [toRat, hsignificand, hzero] at hne
    simp [signed] at hne
  have hnegative : d.negative = e.negative := by
    unfold signed at hsigned
    cases hd : d.negative <;> cases he : e.negative <;> simp [hd, he] at hsigned ⊢ <;> omega
  obtain ⟨hexponent, hfraction⟩ := fields_eq hscale hsignificand
  cases d
  cases e
  simp_all

/-! ## Integers among the doubles -/

theorem two_zpow_eq_div (z : ℤ) : (2 : ℚ) ^ z = 2 ^ z.toNat / 2 ^ (-z).toNat := by
  rcases Int.eq_nat_or_neg z with ⟨n, rfl | rfl⟩
  · simp
  · simp [zpow_neg]

/-- A double is its signed numerator over its denominator. -/
theorem toRat_eq_div (d : Binary64) : d.toRat = d.signed d.magnitude.1 / d.magnitude.2 := by
  rw [toRat, two_zpow_eq_div, magnitude]
  simp only [Nat.pow_eq]
  rw [signed_mul]
  push_cast
  rw [mul_div_assoc]

theorem magnitude_pos (d : Binary64) : 0 < d.magnitude.2 := Nat.two_pow_pos _

/-- A double denotes an integer if the division of its magnitude leaves no remainder. -/
theorem integral?_eq (d : Binary64) :
    d.integral? =
      if d.magnitude.1 % d.magnitude.2 = 0 then some (d.signed (d.magnitude.1 / d.magnitude.2))
      else none := by
  by_cases h : 0 ≤ d.scale
  · have hden : (-d.scale).toNat = 0 := by omega
    simp [integral?, magnitude, h, hden, Nat.mod_one]
  · have hnum : d.scale.toNat = 0 := by omega
    simp [integral?, magnitude, h, hnum]

theorem toRat_eq_int_iff {n : Int} :
    d.toRat = n ↔ d.signed d.magnitude.1 = n * d.magnitude.2 := by
  have hden : (d.magnitude.2 : ℚ) ≠ 0 := by exact_mod_cast d.magnitude_pos.ne'
  rw [toRat_eq_div, div_eq_iff hden]
  exact_mod_cast Iff.rfl

theorem natAbs_mul_of_toRat_eq {n : Int} (h : d.toRat = n) :
    n.natAbs * d.magnitude.2 = d.magnitude.1 := by
  have habs := congrArg abs (toRat_eq_int_iff.mp h)
  rw [abs_signed, abs_mul, Int.abs_eq_natAbs, Nat.abs_cast] at habs
  exact_mod_cast habs.symm

/-- `integral?` gives the integer that a double denotes, and nothing for the other doubles. -/
theorem integral?_eq_some_iff {n : Int} : d.integral? = some n ↔ d.toRat = n := by
  rw [integral?_eq]
  by_cases hmod : d.magnitude.1 % d.magnitude.2 = 0
  · have hden : (d.magnitude.2 : Int) ≠ 0 := by exact_mod_cast d.magnitude_pos.ne'
    have hnum : d.signed d.magnitude.1 = d.signed (d.magnitude.1 / d.magnitude.2) * d.magnitude.2 := by
      rw [← signed_mul, Nat.div_mul_cancel (Nat.dvd_of_mod_eq_zero hmod)]
    rw [if_pos hmod, Option.some.injEq, toRat_eq_int_iff, hnum, mul_left_inj' hden]
  · rw [if_neg hmod]
    refine iff_of_false nofun fun h => hmod ?_
    rw [← natAbs_mul_of_toRat_eq h, Nat.mul_mod_left]

/-- Beyond `2 ^ 53` the integers that doubles denote are even. -/
theorem even_of_toRat_eq {n : Int} (h : d.toRat = n) (hn : 2 ^ 53 < n.natAbs) : Even n := by
  have hmul := natAbs_mul_of_toRat_eq h
  rw [magnitude] at hmul
  simp only [Nat.pow_eq] at hmul
  rw [← Int.natAbs_even]
  by_cases hscale : 0 < d.scale
  · have hden : (-d.scale).toNat = 0 := by omega
    have hexponent : d.scale.toNat ≠ 0 := by omega
    rw [hden, pow_zero, mul_one] at hmul
    rw [hmul]
    exact (Nat.even_pow.mpr ⟨even_two, hexponent⟩).mul_left _
  · -- a denominator can only make the integer smaller than the significand, which is too short
    have hnum : d.scale.toNat = 0 := by omega
    have hlt : d.significand < 2 ^ 53 := d.significand_lt
    rw [hnum, pow_zero, mul_one] at hmul
    have hle := Nat.le_mul_of_pos_right n.natAbs (Nat.two_pow_pos (-d.scale).toNat)
    omega

/-! ## The conversion to 128 bits -/

/-- The integer part of a double: the fraction is dropped. -/
def truncated (d : Binary64) : Int := d.signed (d.magnitude.1 / d.magnitude.2)

/-- The conversion to a signed integer of 128 bits. The fraction is dropped, and what lies beyond the
range becomes the end of it on that side. -/
def toInt128 (d : Binary64) : Int := max (-2 ^ 127) (min (2 ^ 127 - 1) d.truncated)

theorem truncated_eq_of_toRat_eq {n : Int} (h : d.toRat = n) : d.truncated = n := by
  have hintegral := integral?_eq_some_iff.mpr h
  rw [integral?_eq] at hintegral
  split at hintegral
  · exact Option.some.inj hintegral
  · cases hintegral

/-- An integer of less than 39 decimal digits is converted exactly and stays away from the ends of the
range. -/
theorem toInt128_eq_of_toRat_eq {n : Int} (h : d.toRat = n) (hn : n.natAbs < 10 ^ 38) :
    d.toInt128 = n ∧ -2 ^ 127 < n ∧ n < 2 ^ 127 - 1 := by
  rw [toInt128, truncated_eq_of_toRat_eq h]
  omega

end ForeignKey.Binary64
