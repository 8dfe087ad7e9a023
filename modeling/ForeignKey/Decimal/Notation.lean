import ForeignKey.Decimal.Shortest

/-!
# Writing doubles

The shortest digits `d₁…dₙ` of a double are laid out by the place `p` of the decimal point relative to
the first digit (the value is `0.d₁…dₙ * 10 ^ p`): positional notation for `-5 < p ≤ 16`, scientific
notation otherwise, always with a sign on the exponent. A number without a fraction keeps `.0`, so
that it reads back as a double. The formats differ only in whether the one-digit mantissa of the
scientific form gets that `.0` too, which is what `Notation` records.
-/

namespace ForeignKey

/-- The choices of a format for the text of doubles. -/
structure Notation where
  /-- The text after a one-digit mantissa in scientific form. -/
  afterLoneDigit : String

namespace Notation

/-- JSON writes `1e+16`. -/
def json : Notation := ⟨""⟩

/-- YAML writes `1.0e+16`, since its float grammar asks for a point. -/
def yaml : Notation := ⟨".0"⟩

/-- The exponent of the scientific form with its sign. -/
def exponentText (e : Int) : String :=
  "e" ++ (if e < 0 then "-" else "+") ++ toString e.natAbs

/-- The text of a magnitude from its significant digits and the place of the point. -/
def layout (format : Notation) (digits : List Char) (place : Int) : String :=
  let count : Int := digits.length
  if count ≤ place ∧ place ≤ 16 then
    String.ofList (digits ++ List.replicate (place - count).toNat '0') ++ ".0"
  else if 0 < place ∧ place ≤ 16 then
    String.ofList (digits.take place.toNat) ++ "." ++ String.ofList (digits.drop place.toNat)
  else if -5 < place ∧ place ≤ 0 then
    "0." ++ String.ofList (List.replicate (-place).toNat '0' ++ digits)
  else
    match digits with
    | [] => ""
    | [d] => String.ofList [d] ++ format.afterLoneDigit ++ exponentText (place - 1)
    | d :: rest => String.ofList (d :: '.' :: rest) ++ exponentText (place - 1)

/-- The text of a double. -/
def text (format : Notation) (d : Binary64) : String :=
  let magnitude :=
    if d.significand = 0 then "0.0"
    else
      let x := Decimal.shortest d
      let digits := Decimal.digitChars x.digits
      format.layout digits (digits.length + x.exponent)
  if d.negative then "-" ++ magnitude else magnitude

end Notation

end ForeignKey
