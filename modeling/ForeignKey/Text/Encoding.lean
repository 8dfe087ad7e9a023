/-!
# Characters and bytes in digits

Hexadecimal digits of both cases, fixed-width numerals for the escapes of the text formats, and the
characters that such numbers stand for.

Base64 writes bytes as text, three bytes in four digits. The last group of digits is filled up with equals
signs, and what it holds beyond its bytes must be zero, so the digits of some bytes are unique. White
space between digits does not count.
-/

namespace ForeignKey

/-! ## Hexadecimal digits -/

namespace Hex

/-- The value of a hexadecimal digit of either case. -/
def digitValue? (c : Char) : Option Nat :=
  if '0' ≤ c ∧ c ≤ '9' then some (c.toNat - 48)
  else if 'a' ≤ c ∧ c ≤ 'f' then some (c.toNat - 87)
  else if 'A' ≤ c ∧ c ≤ 'F' then some (c.toNat - 55)
  else none

/-- Whether a character is a hexadecimal digit. -/
def isDigit (c : Char) : Bool := (digitValue? c).isSome

/-- The digit of a value below sixteen, in lower case. -/
def lowerDigit (n : Nat) : Char := if n < 10 then Char.ofNat (48 + n) else Char.ofNat (87 + n)

/-- The digit of a value below sixteen, in upper case. -/
def upperDigit (n : Nat) : Char := if n < 10 then Char.ofNat (48 + n) else Char.ofNat (55 + n)

/-- The lowest `width` digits of a number, most significant first, spelt by `digit`. -/
def numeral (digit : Nat → Char) : Nat → Nat → List Char
  | 0, _ => []
  | width + 1, n => numeral digit width (n / 16) ++ [digit (n % 16)]

/-- The number that a list of digits spells, in the given base; none if a character is no digit of
it. -/
def ofDigits? (base : Nat) (digits : List Char) : Option Nat :=
  digits.foldlM (fun n c => (digitValue? c).bind fun d => if d < base then some (n * base + d) else none) 0

/-- The character with a number, if there is one. -/
def char? (n : Nat) : Option Char := if n.isValidChar then some (Char.ofNat n) else none

end Hex

/-! ## Base64 -/

namespace Base64

/-- The value of a digit. -/
def digitValue? (c : Char) : Option Nat :=
  if 'A' ≤ c ∧ c ≤ 'Z' then some (c.toNat - 65)
  else if 'a' ≤ c ∧ c ≤ 'z' then some (c.toNat - 71)
  else if '0' ≤ c ∧ c ≤ '9' then some (c.toNat + 4)
  else if c = '+' then some 62
  else if c = '/' then some 63
  else none

/-- The bytes of a number, of which there are `count`, most significant first. -/
def bytesOf (count n : Nat) : List UInt8 :=
  ((List.range count).map fun i => UInt8.ofNat (n / Nat.pow 256 i)).reverse

/-- The bytes that digits spell, in groups of four. -/
def ofDigits? : List Char → Option (List UInt8)
  | [] => some []
  | [a, b, '=', '='] => do
    let n := (← digitValue? a) * 64 + (← digitValue? b)
    if n % 16 = 0 then some (bytesOf 1 (n / 16)) else none
  | [a, b, c, '='] => do
    let n := ((← digitValue? a) * 64 + (← digitValue? b)) * 64 + (← digitValue? c)
    if n % 4 = 0 then some (bytesOf 2 (n / 4)) else none
  | a :: b :: c :: d :: rest => do
    let high := (← digitValue? a) * 64 + (← digitValue? b)
    let low := (← digitValue? c) * 64 + (← digitValue? d)
    some (bytesOf 3 (high * 4096 + low) ++ (← ofDigits? rest))
  | _ => none

/-- The white space that may stand between digits. -/
def isGap (c : Char) : Bool := c.isWhitespace || c == '\x0c'

/-- The text whose bytes are spelt, if they are the bytes of a text. -/
def text? (s : String) : Option String := do
  let bytes ← ofDigits? (s.toList.filter (!isGap ·))
  String.fromUTF8? ⟨bytes.toArray⟩

end Base64

end ForeignKey
