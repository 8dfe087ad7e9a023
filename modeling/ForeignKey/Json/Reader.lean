import ForeignKey.Binary64.Nearest
import ForeignKey.Text.Encoding
import ForeignKey.Value

/-!
# Reading JSON text

A reader for JSON that keeps the entries of objects in the order of the text. A number without point
and exponent that fits 64 bits is an integer, any other a double, correctly rounded; `-0` is the
negative zero. Reading fails on anything outside the JSON grammar, on a lone surrogate, and on a
number beyond the finite doubles.

Each reader takes the rest of the text and gives what it read with what is left. Values nest, so
their reader spends one unit of fuel per step; a text cannot ask for more steps than it has
characters, which is what `ofJson?` starts with.
-/

namespace ForeignKey.Json

/-- Drops the spaces that JSON allows between tokens. -/
def skipSpace : List Char → List Char
  | [] => []
  | c :: rest => if c = ' ' ∨ c = '\t' ∨ c = '\n' ∨ c = '\x0d' then skipSpace rest else c :: rest

/-! ## Strings

A string is read in two passes: first the units between its quotes, a unit being a character or the
number of a `\\u` escape, then the characters that the units spell, where two halves of a surrogate
pair are one character.
-/

/-- The character that a short escape stands for. -/
def shortEscape? (c : Char) : Option Char :=
  if c = '\x22' ∨ c = '\\' ∨ c = '/' then some c
  else if c = 'b' then some '\x08'
  else if c = 't' then some '\t'
  else if c = 'n' then some '\n'
  else if c = 'f' then some '\x0c'
  else if c = 'r' then some '\x0d'
  else none

/-- The units up to the closing quote and the text after it. -/
def readUnits? : List Char → Option (List Nat × List Char)
  | [] => none
  | '\x22' :: rest => some ([], rest)
  | '\\' :: 'u' :: a :: b :: c :: d :: rest => do
    let unit ← Hex.ofDigits? 16 [a, b, c, d]
    let (units, after) ← readUnits? rest
    some (unit :: units, after)
  | '\\' :: c :: rest => do
    let e ← shortEscape? c
    let (units, after) ← readUnits? rest
    some (e.toNat :: units, after)
  | c :: rest =>
    if c.toNat < 32 ∨ c = '\\' then none
    else (readUnits? rest).map fun (units, after) => (c.toNat :: units, after)

/-- Whether a unit is the first half of a surrogate pair. -/
def isHighSurrogate (unit : Nat) : Bool := 0xD800 ≤ unit && unit < 0xDC00

/-- Whether a unit is the second half of a surrogate pair. -/
def isLowSurrogate (unit : Nat) : Bool := 0xDC00 ≤ unit && unit < 0xE000

/-- The characters that units spell; none if a half of a pair stands alone. -/
def joinUnits? : List Nat → Option (List Char)
  | [] => some []
  | [unit] =>
    if isHighSurrogate unit || isLowSurrogate unit then none else some [Char.ofNat unit]
  | unit :: next :: rest =>
    if isHighSurrogate unit then
      if isLowSurrogate next then
        (joinUnits? rest).map
          (Char.ofNat (0x10000 + (unit - 0xD800) * 0x400 + (next - 0xDC00)) :: ·)
      else none
    else if isLowSurrogate unit then none
    else (joinUnits? (next :: rest)).map (Char.ofNat unit :: ·)

/-- The content of a string after its opening quote. -/
def readString? (cs : List Char) : Option (String × List Char) := do
  let (units, rest) ← readUnits? cs
  let content ← joinUnits? units
  some (String.ofList content, rest)

/-! ## Numbers -/

/-- A numeral read from the text: its digits as a number and how many of them follow the point. -/
structure Numeral where
  negative : Bool
  digits : Nat
  exponent : Int
  isInteger : Bool

/-- A numeral by the JSON grammar. -/
def readNumeral? (cs : List Char) : Option (Numeral × List Char) := do
  let (negative, cs) := match cs with
    | '-' :: rest => (true, rest)
    | _ => (false, cs)
  let whole := cs.takeWhile Char.isDigit
  let rest := cs.dropWhile Char.isDigit
  if whole.isEmpty ∨ (whole.head? = some '0' ∧ 1 < whole.length) then none
  else
    let (fraction, rest, pointed) := match rest with
      | '.' :: after => (after.takeWhile Char.isDigit, after.dropWhile Char.isDigit, true)
      | _ => ([], rest, false)
    if pointed ∧ fraction.isEmpty then none
    else
      let (exponent, rest) ← Decimal.readExponent? rest
      some (⟨negative, Decimal.digitsValue (whole ++ fraction), exponent.getD 0 - fraction.length,
        !pointed && exponent.isNone⟩, rest)

/-- The number of a numeral: an integer if it is written as one and fits 64 bits, else the nearest
double. Only a double can be a negative zero. -/
def Numeral.number? (x : Numeral) : Option Number :=
  let n : Int := if x.negative then -x.digits else x.digits
  if x.isInteger ∧ Number.InRange n ∧ ¬(x.negative ∧ x.digits = 0) then some (.integer n)
  else (Binary64.ofDecimal? x.digits x.exponent).map fun d =>
    .double (if x.negative then d.neg else d)

/-! ## Values -/

/-- Drops a literal word from the front of the text. -/
def dropWord? (word : List Char) (cs : List Char) : Option (List Char) :=
  if word.isPrefixOf cs then some (cs.drop word.length) else none

mutual

/-- A value at the front of the text. -/
def readValue? : Nat → List Char → Option (Value × List Char)
  | 0, _ => none
  | fuel + 1, cs =>
    match skipSpace cs with
    | [] => none
    | '[' :: rest =>
      match skipSpace rest with
      | ']' :: rest => some (.array [], rest)
      | rest => (readItems? fuel rest).map fun (items, rest) => (.array items, rest)
    | '\x7b' :: rest =>
      match skipSpace rest with
      | '\x7d' :: rest => some (.object [], rest)
      | rest => (readEntries? fuel rest).map fun (entries, rest) => (.object entries, rest)
    | '\x22' :: rest =>
      (readString? rest).map fun (s, rest) => (.string s, rest)
    | c :: rest =>
      if c = 'n' then (dropWord? "ull".toList rest).map (.null, ·)
      else if c = 't' then (dropWord? "rue".toList rest).map (.bool true, ·)
      else if c = 'f' then (dropWord? "alse".toList rest).map (.bool false, ·)
      else do
        let (x, rest) ← readNumeral? (c :: rest)
        let n ← x.number?
        some (.number n, rest)

/-- The elements of an array up to its closing bracket. -/
def readItems? : Nat → List Char → Option (List Value × List Char)
  | 0, _ => none
  | fuel + 1, cs => do
    let (v, rest) ← readValue? fuel cs
    match skipSpace rest with
    | ',' :: rest => (readItems? fuel rest).map fun (items, rest) => (v :: items, rest)
    | ']' :: rest => some ([v], rest)
    | _ => none

/-- The entries of an object up to its closing brace. -/
def readEntries? : Nat → List Char → Option (List (String × Value) × List Char)
  | 0, _ => none
  | fuel + 1, cs => do
    let '\x22' :: rest := skipSpace cs | none
    let (key, rest) ← readString? rest
    let ':' :: rest := skipSpace rest | none
    let (v, rest) ← readValue? fuel rest
    match skipSpace rest with
    | ',' :: rest => (readEntries? fuel rest).map fun (entries, rest) => ((key, v) :: entries, rest)
    | '\x7d' :: rest => some ([(key, v)], rest)
    | _ => none

end

end ForeignKey.Json

namespace ForeignKey

/-- The value that a JSON text spells, if it is one. -/
def Value.ofJson? (text : String) : Option Value :=
  let cs := text.toList
  match Json.readValue? (cs.length + 1) cs with
  | some (v, rest) => if (Json.skipSpace rest).isEmpty then some v else none
  | none => none

end ForeignKey
