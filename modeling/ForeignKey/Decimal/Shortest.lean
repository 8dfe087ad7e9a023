import ForeignKey.Binary64.Nearest

/-!
# The shortest decimal that reads back

A positive double is written with the fewest significant digits that `Binary64.ofDecimal?` reads back
to it; of two candidates with that many digits the nearer one is taken, and on an exact tie the even
one. The search walks the decimal grids from coarse to fine and looks at the two neighbours of the
value on each. Seventeen digits always suffice, so the search is over a range of known size.
-/

namespace ForeignKey

/-- A decimal number `digits * 10 ^ exponent`. -/
structure Decimal where
  digits : Nat
  exponent : Int
  deriving DecidableEq, Repr

namespace Decimal

/-- The digits of a number in base ten, most significant first. -/
def digitChars (n : Nat) : List Char := Nat.toDigits 10 n

/-- Moves the trailing zeros of the digits into the exponent. -/
def trimmed (digits : Nat) (exponent : Int) : Decimal :=
  if h : digits ≠ 0 ∧ digits % 10 = 0 then trimmed (digits / 10) (exponent + 1)
  else ⟨digits, exponent⟩
termination_by digits
decreasing_by omega

/-- The least `p` with `num / den < 10 ^ p`, for a positive quotient: the place of the decimal point
relative to the first significant digit. -/
def pointPlace (num den : Nat) : Int :=
  let guess := ((digitChars num).length : Int) - (digitChars den).length
  if num * Nat.pow 10 (-guess).toNat < den * Nat.pow 10 guess.toNat then guess else guess + 1

/-- The neighbours of `num / den` among the multiples of `10 ^ exponent`, nearer one first. -/
def neighbours (num den : Nat) (exponent : Int) : List Decimal :=
  let n := num * Nat.pow 10 (-exponent).toNat
  let d := den * Nat.pow 10 exponent.toNat
  let below := n / d
  let twice := 2 * (n % d)
  let down : Decimal := ⟨below, exponent⟩
  let up : Decimal := ⟨below + 1, exponent⟩
  if twice < d ∨ (twice = d ∧ below % 2 = 0) then [down, up] else [up, down]

/-- The double nearest to a decimal, if it is finite. -/
def toBinary64? (x : Decimal) : Option Binary64 := Binary64.ofDecimal? x.digits x.exponent

/-- Walks the grids with `count`, `count + 1`, … digits, `fuel` of them, and gives the first neighbour
that reads back. -/
def search (d : Binary64) (num den : Nat) (place : Int) : Nat → Nat → Option Decimal
  | 0, _ => none
  | fuel + 1, count =>
    match (neighbours num den (place - count)).find? (·.toBinary64? == some d) with
    | some x => some x
    | none => search d num den place fuel (count + 1)

/-- The shortest decimal that reads back to the magnitude of `d`, without trailing zeros. -/
def shortest (d : Binary64) : Decimal :=
  if d.significand = 0 then ⟨0, 0⟩
  else
    let (num, den) := d.magnitude
    let place := pointPlace num den
    let x := (search { d with negative := false } num den place 17 1).getD ⟨0, 0⟩
    trimmed x.digits x.exponent

end Decimal

end ForeignKey
