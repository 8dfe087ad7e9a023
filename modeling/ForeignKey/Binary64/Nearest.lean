import ForeignKey.Binary64

/-!
# The double nearest to a quotient

The parts that the number formats share, which are runs of digits and exponents, and the double that they
denote. Rounding of an exact non-negative quotient to binary64, to nearest with ties to the even
significand. A quotient that rounds beyond the largest finite double has no answer.

The scale is chosen so that the quotient, divided by that power of two, has 53 binary digits before
the point, or is the least scale `-1074` for the quotients too small for that. What is left is one
division with remainder.
-/

namespace ForeignKey

/-! ## Decimal numerals -/

namespace Decimal

/-- The value of a list of decimal digits. -/
def digitsValue (digits : List Char) : Nat :=
  digits.foldl (fun n c => n * 10 + (c.toNat - 48)) 0

/-- The exponent at the front of a text, if there is one, and the text after it. A mark without digits
after it is no numeral. -/
def readExponent? (cs : List Char) : Option (Option Int × List Char) :=
  match cs with
  | e :: rest =>
    if e = 'e' ∨ e = 'E' then
      let (negative, rest) := match rest with
        | '-' :: rest => (true, rest)
        | '+' :: rest => (false, rest)
        | _ => (false, rest)
      let digits := rest.takeWhile Char.isDigit
      if digits.isEmpty then none
      else
        let n : Int := digitsValue digits
        some (some (if negative then -n else n), rest.dropWhile Char.isDigit)
    else some (none, cs)
  | [] => some (none, cs)

end Decimal

/-! ## Rounding -/

namespace Binary64

/-- The double with the given significand and scale, where the significand either has its leading
bit at position 52 or goes with the least scale. -/
def ofSignificand? (significand : Nat) (scale : Int) : Option Binary64 :=
  let exponent := if significand < Nat.pow 2 52 then 0 else (scale + 1075).toNat
  let fraction := significand % Nat.pow 2 52
  if h : exponent < 2047 then
    some ⟨false, ⟨exponent, h⟩, ⟨fraction, Nat.mod_lt _ (by decide)⟩⟩
  else none

/-- Division rounded to the nearest integer, a half going to the even neighbour. -/
def roundedDiv (num den : Nat) : Nat :=
  let q := num / den
  let twice := 2 * (num % den)
  if twice < den then q
  else if den < twice then q + 1
  else if q % 2 = 0 then q else q + 1

/-- The quotient `num / (den * 2 ^ scale)` as a new numerator and denominator. -/
def scaled (num den : Nat) (scale : Int) : Nat × Nat :=
  (num * Nat.pow 2 (-scale).toNat, den * Nat.pow 2 scale.toNat)

/-- The scale at which a positive quotient has 53 binary digits before the point, and no less than
`-1074`. The difference of the logarithms misses it by at most one. -/
def nearestScale (num den : Nat) : Int :=
  let guess := (Nat.log2 num : Int) - Nat.log2 den - 52
  let (n, d) := scaled num den guess
  max (-1074) (if n / d < Nat.pow 2 52 then guess - 1 else guess)

/-- The double nearest to `num / den`, ties to even; none if that is beyond the finite doubles. -/
def ofQuotient? (num den : Nat) : Option Binary64 :=
  if num = 0 then some zero
  else
    let scale := nearestScale num den
    let (n, d) := scaled num den scale
    let significand := roundedDiv n d
    if significand = Nat.pow 2 53 then ofSignificand? (Nat.pow 2 52) (scale + 1)
    else ofSignificand? significand scale

/-- The double nearest to `digits * 10 ^ exponent`, ties to even; none on overflow. Beyond `10 ^ 310`
the answer is none and below `10 ^ -400` it is zero, whatever the digits are, so that a huge exponent
costs nothing. -/
def ofDecimal? (digits : Nat) (exponent : Int) : Option Binary64 :=
  if digits = 0 then some zero
  else
    let size := (Nat.log2 digits : Int) / 4 + exponent
    let bound := (Nat.log2 digits : Int) / 3 + 1 + exponent
    if 310 < size then none
    else if bound < -400 then some zero
    else ofQuotient? (digits * Nat.pow 10 exponent.toNat) (Nat.pow 10 (-exponent).toNat)

end Binary64

end ForeignKey
