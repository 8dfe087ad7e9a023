import ForeignKey.Binary64.Nearest
import ForeignKey.Text.Encoding
import ForeignKey.Value
import ForeignKey.Yaml.Style
import ForeignKey.Yaml.Tag

/-!
# The meaning of YAML scalars

A quoted or block scalar is a text, and so is one whose tag says so. A plain scalar is a null, a
boolean, an integer or a float where it is spelt like one, in this order, and else a text. White space
around a boolean or a number does not count. An integer that does not fit 64 bits may still be a float.
Values hold no number that is infinite or no number at all; such a float is the text of it.

What is spelt like a null is one even if a tag says that it is a text. Tags of other kinds than null,
text and bytes make a scalar unreadable.

A scalar can also be the key of an entry. Then it must be no null, but a tag can make a text of what is
spelt like one; and the first key of an object is what it spells whatever else its tag says.
-/

namespace ForeignKey.Yaml

/-! ## Integers -/

/-- The base that a prefix announces and the digits after it. -/
def splitBase : List Char → Nat × List Char
  | '0' :: c :: rest =>
    if c = 'x' ∨ c = 'X' then (16, rest)
    else if c = 'o' ∨ c = 'O' then (8, rest)
    else if c = 'b' ∨ c = 'B' then (2, rest)
    else (10, '0' :: c :: rest)
  | cs => (10, cs)

/-- The number that digits of a base spell. Underscores among them do not count. -/
def digitsOf? (base : Nat) (cs : List Char) : Option Nat :=
  let digits := cs.filter (· ≠ '_')
  if digits.isEmpty then none else Hex.ofDigits? base digits

/-- The integer that a text spells, if it is in the range of integers. -/
def integerOf? (cs : List Char) : Option Int := do
  let (base, digits) := splitBase (dropSign cs)
  let magnitude ← digitsOf? base digits
  let n : Int := if cs.head? = some '-' then -magnitude else magnitude
  if Number.InRange n then some n else none

/-! ## Floats -/

/-- What a float may be. -/
inductive Floating where
  | finite (d : Binary64)
  | infinite (negative : Bool)
  | notANumber

/-- The float that decimal digits spell, with at most one point and an exponent. -/
def finiteOf? (negative : Bool) (cs : List Char) : Option Floating := do
  let whole := cs.takeWhile Char.isDigit
  let rest := cs.dropWhile Char.isDigit
  let (fraction, rest) :=
    match rest with
    | '.' :: after => (after.takeWhile Char.isDigit, after.dropWhile Char.isDigit)
    | _ => ([], rest)
  if whole.isEmpty ∧ fraction.isEmpty then none
  else
    let (exponent, rest) ← Decimal.readExponent? rest
    if rest.isEmpty then
      match Binary64.ofDecimal? (Decimal.digitsValue (whole ++ fraction))
          (exponent.getD 0 - fraction.length) with
      | some d => some (.finite (if negative then d.neg else d))
      | none => some (.infinite negative)
    else none

/-- The float that a text spells: a decimal number, or a word for an infinity or for no number. -/
def floatOf? (cs : List Char) : Option Floating :=
  let negative := cs.head? == some '-'
  let body := dropSign cs
  if isWord ["nan", ".nan"] body then some .notANumber
  else if isWord ["inf", "infinity", ".inf"] body then some (.infinite negative)
  else finiteOf? negative body

/-- The value for a float. -/
def Floating.toValue : Floating → Value
  | .finite d => .number (.double d)
  | .infinite negative => .string (if negative then "-.inf" else ".inf")
  | .notANumber => .string ".nan"

/-! ## Scalars -/

/-- Whether a plain scalar is a null. -/
def isNull (cs : List Char) : Bool := cs.isEmpty || cs == ['~'] || isWord ["null"] cs

/-- The boolean that a plain scalar is. -/
def booleanOf? (cs : List Char) : Option Bool :=
  if isWord ["true", "yes", "y", "on"] cs then some true
  else if isWord ["false", "no", "n", "off"] cs then some false
  else none

/-- The value of a plain scalar that is no null. -/
def plainValue (text : String) : Value :=
  let cs := Text.trim text.toList
  match booleanOf? cs with
  | some b => .bool b
  | none =>
    match integerOf? cs with
    | some n => .number (.integer n)
    | none => ((floatOf? cs).map Floating.toValue).getD (.string text)

/-- Whether a scalar is spelt like a null. -/
def looksNull (style : ScalarStyle) (text : String) : Bool := style == .plain && isNull text.toList

/-- Whether a scalar is a null. -/
def isNullScalar (style : ScalarStyle) (kind? : Option TagKind) (text : String) : Bool :=
  kind? == some .null || looksNull style text

/-- The text that a scalar stands for under its tag, if that allows any. -/
def taggedText? (kind? : Option TagKind) (text : String) : Option String :=
  match kind? with
  | some .binary => Base64.text? text
  | some (.refused _) => none
  | _ => some text

/-- The value of a scalar, if its tag allows any. -/
def scalarValue? (style : ScalarStyle) (kind? : Option TagKind) (text : String) : Option Value :=
  if isNullScalar style kind? text then some .null
  else if style == .plain && (kind?.all (· == .other)) then some (plainValue text)
  else (taggedText? kind? text).map .string

/-! ## Keys -/

/-- The name that a scalar gives to an entry as the first key of an object. -/
def firstKeyName? (style : ScalarStyle) (kind? : Option TagKind) (text : String) : Option String :=
  if isNullScalar style kind? text then none else some text

/-- The name that a scalar gives to an entry as a later key of an object. -/
def laterKeyName? (style : ScalarStyle) (kind? : Option TagKind) (text : String) : Option String :=
  if kind? = some .text then some text
  else if isNullScalar style kind? text then none
  else taggedText? kind? text

end ForeignKey.Yaml
