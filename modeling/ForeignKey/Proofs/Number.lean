import ForeignKey.Binary64.Nearest
import ForeignKey.Proofs.Binary64
import ForeignKey.Value.Equality

/-!
# Numbers by the rationals they denote

A number denotes a rational, as an integer or as a double. Its key is an integer wherever the rational is
one that 64 bits could hold, so that integers and doubles meet; the doubles that stay as they are denote
fractions, or integers beyond every one of 64 bits, and each of these once. Hence two numbers have the
same key exactly when they denote the same rational.
-/

namespace ForeignKey

namespace Number

/-- The rational number that a number denotes. -/
def toRat : Number → ℚ
  | .integer n => n
  | .double d => d.toRat

/-- What a document can hold: integers of signed or unsigned 64 bits, and all finite doubles. -/
def Representable : Number → Prop
  | .integer n => InRange n
  | .double _ => True

/-! ## The keys of doubles -/

/-- The key of a double is the integer that it denotes, if that is below the limit; otherwise the double
itself, and then it denotes no integer below the limit. -/
theorem key_double_cases (d : Binary64) :
    (∃ n : Int, d.toRat = n ∧ n.natAbs < integralLimit ∧ (double d).key = .integer n) ∨
      (∀ n : Int, d.toRat = n → integralLimit ≤ n.natAbs) ∧ (double d).key = .double d := by
  rw [key]
  cases hintegral : d.integral? with
  | some n =>
    have hrat := Binary64.integral?_eq_some_iff.mp hintegral
    by_cases hn : n.natAbs < integralLimit
    · exact .inl ⟨n, hrat, hn, if_pos hn⟩
    · refine .inr ⟨fun m hm => ?_, if_neg hn⟩
      obtain rfl : m = n := by exact_mod_cast hm.symm.trans hrat
      exact Nat.le_of_not_lt hn
  | none =>
    refine .inr ⟨fun m hm => ?_, rfl⟩
    rw [Binary64.integral?_eq_some_iff.mpr hm] at hintegral
    cases hintegral

theorem abs_lt_integralLimit_iff {n : Int} : |(n : ℚ)| < integralLimit ↔ n.natAbs < integralLimit := by
  rw [← Int.cast_abs, Int.abs_eq_natAbs]
  exact_mod_cast Iff.rfl

theorem integralLimit_lt : integralLimit < 10 ^ 38 := by
  unfold integralLimit
  omega

example : (Binary64.ofDecimal? 1 38).bind Binary64.integral? = some (integralLimit : Int) := by
  decide +kernel

/-- A double is kept if it has a fraction or reaches the limit; otherwise its key is what the conversion
to 128 bits makes of it. -/
theorem key_double (d : Binary64) :
    (double d).key =
      if d.truncated = d.toRat ∧ |d.toRat| < integralLimit then .integer d.toInt128
      else .double d := by
  rcases key_double_cases d with ⟨n, hrat, hn, hkey⟩ | ⟨hlimit, hkey⟩
  · have htruncated : (d.truncated : ℚ) = d.toRat := by
      rw [Binary64.truncated_eq_of_toRat_eq hrat, hrat]
    have hbelow : |d.toRat| < integralLimit := by
      rw [hrat]
      exact abs_lt_integralLimit_iff.mpr hn
    rw [hkey, if_pos ⟨htruncated, hbelow⟩,
      (Binary64.toInt128_eq_of_toRat_eq hrat (hn.trans integralLimit_lt)).1]
  · rw [hkey, if_neg]
    rintro ⟨htruncated, hbelow⟩
    rw [← htruncated] at hbelow
    exact absurd (abs_lt_integralLimit_iff.mp hbelow) (Nat.not_lt.mpr (hlimit _ htruncated.symm))

theorem InRange.natAbs_lt_integralLimit {n : Int} (h : InRange n) : n.natAbs < integralLimit := by
  obtain ⟨hlow, hhigh⟩ := h
  unfold integralLimit
  omega

/-- An integer of 64 bits has the key of exactly the doubles that denote it. -/
theorem key_double_eq_integer_iff {d : Binary64} {n : Int} (hn : InRange n) :
    (double d).key = .integer n ↔ d.toRat = n := by
  rcases key_double_cases d with ⟨m, hrat, -, hkey⟩ | ⟨hlimit, hkey⟩
  · rw [hkey, hrat, NumberKey.integer.injEq, Int.cast_inj]
  · rw [hkey]
    refine iff_of_false nofun fun hrat => ?_
    exact absurd hn.natAbs_lt_integralLimit (Nat.not_lt.mpr (hlimit n hrat))

/-- Two doubles have the same key exactly when they denote the same rational. -/
theorem key_double_eq_double_iff {d e : Binary64} :
    (double d).key = (double e).key ↔ d.toRat = e.toRat := by
  rcases key_double_cases d with ⟨m, hd, hm, hkeyd⟩ | ⟨hd, hkeyd⟩ <;>
    rcases key_double_cases e with ⟨n, he, hn, hkeye⟩ | ⟨he, hkeye⟩
  · rw [hkeyd, hkeye, hd, he, NumberKey.integer.injEq, Int.cast_inj]
  · rw [hkeyd, hkeye]
    refine iff_of_false nofun fun h => ?_
    exact absurd hm (Nat.not_lt.mpr (he m (h.symm.trans hd)))
  · rw [hkeyd, hkeye]
    refine iff_of_false nofun fun h => ?_
    exact absurd hn (Nat.not_lt.mpr (hd n (h.trans he)))
  · rw [hkeyd, hkeye, NumberKey.double.injEq]
    refine ⟨fun h => congrArg Binary64.toRat h, fun h => Binary64.eq_of_toRat_eq h fun hzero => ?_⟩
    -- zero is an integer below the limit, so it would not have been kept
    exact absurd (hd 0 (by exact_mod_cast hzero)) (by decide)

/-! ## Keys and rationals -/

/-- Two numbers of a document have the same key exactly when they denote the same rational. -/
theorem key_eq_key_iff {a b : Number} (ha : a.Representable) (hb : b.Representable) :
    a.key = b.key ↔ a.toRat = b.toRat := by
  cases a with
  | integer m =>
    cases b with
    | integer n =>
      show NumberKey.integer m = .integer n ↔ (m : ℚ) = n
      rw [NumberKey.integer.injEq, Int.cast_inj]
    | double e =>
      rw [eq_comm, eq_comm (a := toRat _)]
      exact key_double_eq_integer_iff ha
  | double d =>
    cases b with
    | integer n => exact key_double_eq_integer_iff hb
    | double e => exact key_double_eq_double_iff

/-- A double that is kept shares its key with no other number, whether in range or not. -/
theorem eq_double_of_key_eq {d : Binary64} {n : Number} (h : n.key = .double d) : n = .double d := by
  cases n with
  | integer m => cases h
  | double e =>
    rcases key_double_cases e with ⟨m, -, -, hkey⟩ | ⟨-, hkey⟩
    · rw [hkey] at h
      cases h
    · rw [hkey] at h
      exact congrArg Number.double (NumberKey.double.inj h)

/-- The key of a number stands for the rational that it denotes. Integral doubles of magnitude below
`10 ^ 38` are converted to 128 bits exactly and within the range, and that is the key below the limit; a
double that is kept has the key of no other number; an integer beyond `2 ^ 53` has the key of no double
beside it, and of no double at all if it is odd; and both zeros have one key. -/
theorem key_stands_for_rational :
    (∀ a b : Number, a.Representable → b.Representable → (a.key = b.key ↔ a.toRat = b.toRat)) ∧
    (∀ (d : Binary64) (n : Int), d.toRat = n → n.natAbs < 10 ^ 38 →
      d.toInt128 = n ∧ -2 ^ 127 < n ∧ n < 2 ^ 127 - 1) ∧
    (∀ d : Binary64, (double d).key =
      if d.truncated = d.toRat ∧ |d.toRat| < integralLimit then .integer d.toInt128
      else .double d) ∧
    (∀ d e : Binary64, (double d).key = .double e →
      e = d ∧ ∀ n : Number, n ≠ .double d → n.key ≠ (double d).key) ∧
    (∀ (m : Int) (d : Binary64), InRange m → 2 ^ 53 < m.natAbs →
      (d.toRat ≠ m → (integer m).key ≠ (double d).key) ∧
      (Odd m → (integer m).key ≠ (double d).key)) ∧
    (double .zero).key = (double Binary64.zero.neg).key := by
  refine ⟨fun a b => key_eq_key_iff, fun d n => Binary64.toInt128_eq_of_toRat_eq, key_double, ?_, ?_,
    key_double_eq_double_iff.mpr ?_⟩
  · intro d e h
    have hkept : e = d := by
      cases eq_double_of_key_eq h
      rfl
    subst hkept
    exact ⟨rfl, fun n hn hkey => hn (eq_double_of_key_eq (hkey.trans h))⟩
  · intro m d hm hbeyond
    constructor
    · intro hne hkey
      exact hne ((key_double_eq_integer_iff hm).mp hkey.symm)
    · intro hodd hkey
      have heven := Binary64.even_of_toRat_eq ((key_double_eq_integer_iff hm).mp hkey.symm) hbeyond
      exact Int.not_even_iff_odd.mpr hodd heven
  · rw [Binary64.toRat_neg, Binary64.toRat_zero, neg_zero]

/-- `9007199254740993` is `2 ^ 53 + 1`; the doubles on both sides of it are `9007199254740992.0` and
`9007199254740994.0`, of which the first is an integer that has the same key. -/
theorem key_beside_greatest_exact_integers :
    let below : Binary64 := ⟨false, ⟨1076, by decide⟩, ⟨0, by decide⟩⟩
    let above : Binary64 := ⟨false, ⟨1076, by decide⟩, ⟨1, by decide⟩⟩
    InRange 9007199254740993 ∧
    (integer 9007199254740993).key ≠ (double below).key ∧
    (integer 9007199254740993).key ≠ (double above).key ∧
    (integer 9007199254740992).toRat = (double below).toRat := by
  intro below above
  have hrange : InRange 9007199254740993 := by decide
  have hrange' : InRange 9007199254740992 := by decide
  obtain ⟨hkeys, -, -, -, hbeyond, -⟩ := key_stands_for_rational
  have hodd : Odd (9007199254740993 : Int) := by decide
  have hrat : (integer 9007199254740992).key = (double below).key := by decide
  exact ⟨hrange, (hbeyond _ below hrange (by decide)).2 hodd, (hbeyond _ above hrange (by decide)).2 hodd,
    (hkeys (.integer 9007199254740992) (.double below) hrange' trivial).mp hrat⟩

end Number

end ForeignKey
