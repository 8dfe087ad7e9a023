import ForeignKey.Text
import ForeignKey.Text.Encoding

/-!
# Styles of YAML scalars

How a text is written as a YAML scalar. It is plain where a reader is sure to take it for a text:
neither for a null, a boolean or a number, nor for some structure. A text of several lines is a literal
block if it is long or would be plain on one line, and a long plain text is a folded block. What is
left is quoted.
-/

namespace ForeignKey.Yaml

/-! ## Texts that are not read as texts -/

/-- ASCII lower case. -/
def lower (cs : List Char) : List Char := cs.map Char.toLower

/-- Whether a text is one of some words, in any ASCII case. -/
def isWord (words : List String) (cs : List Char) : Bool :=
  words.any fun word => word.toList == lower cs

/-- A text without the sign before it. -/
def dropSign : List Char → List Char
  | '+' :: rest => rest
  | '-' :: rest => rest
  | cs => cs

/-- Whether a text is a digit followed by digits and underscores. -/
def isDigitRun : List Char → Bool
  | [] => false
  | c :: rest => c.isDigit && rest.all fun d => d.isDigit || d == '_'

/-- Whether a text is made of digits of a base and underscores, and not empty. -/
def isRunOf (isDigit : Char → Bool) (cs : List Char) : Bool :=
  !cs.isEmpty && cs.all fun c => isDigit c || c == '_'

/-- Whether a text looks like an exponent with its mark, or is empty. -/
def isExponent : List Char → Bool
  | [] => true
  | _ :: rest => isDigitRun (dropSign rest)

/-- Whether a text looks like digits with at most one point, a digit coming first on one side of it. -/
def isMantissa (cs : List Char) : Bool :=
  let before := cs.takeWhile (· ≠ '.')
  match cs.dropWhile (· ≠ '.') with
  | [] => isDigitRun before
  | _ :: after =>
    (isDigitRun before && after.all fun d => d.isDigit || d == '_')
      || (before.isEmpty && isDigitRun after)

/-- Whether a text looks like a number in one of the notations of YAML. -/
def looksNumeric (cs : List Char) : Bool :=
  match dropSign cs with
  | '0' :: 'x' :: digits => isRunOf Hex.isDigit digits
  | '0' :: 'o' :: digits => isRunOf (fun c => '0' ≤ c && c ≤ '7') digits
  | '0' :: 'b' :: digits => isRunOf (fun c => c == '0' || c == '1') digits
  | body =>
    let isMark (c : Char) : Bool := c == 'e' || c == 'E'
    isMantissa (body.takeWhile (!isMark ·)) && isExponent (body.dropWhile (!isMark ·))

/-- Whether a text alone could be read as something else than a text. -/
def isAmbiguous (cs : List Char) : Bool :=
  cs.isEmpty || cs == ['~'] || isWord ["null", "true", "false"] cs
    || isWord [".nan", ".inf"] (dropSign cs) || looksNumeric cs

/-! ## Texts that look like structure -/

/-- The control characters, both ranges. -/
def isControl (c : Char) : Bool := c.toNat < 0x20 || (0x7F ≤ c.toNat && c.toNat ≤ 0x9F)

/-- Blanks and breaks at which an indicator stands alone. -/
def isGap (c : Char) : Bool := c == ' ' || c == '\t' || c == '\n' || c == '\x0c' || c == '\x0d'

/-- The characters that a plain text must not begin with. -/
def isIndicator (c : Char) : Bool :=
  [',', ':', '[', ']', '\x7b', '\x7d', '#', '&', '*', '!', '|', '>', '\x27', '\x22', '%', '@',
    '\x60'].contains c

/-- Whether the first characters of a text would be taken for structure. -/
def hasBadStart : List Char → Bool
  | [] => false
  | c :: rest =>
    isGap c || isIndicator c
      || ((c == '-' || c == '?') &&
        match rest with
        | [] => true
        | d :: _ => isGap d)

/-- Whether a text holds a colon followed by a space. -/
def hasKeyMark : List Char → Bool
  | ':' :: ' ' :: _ => true
  | _ :: rest => hasKeyMark rest
  | [] => false

/-- Whether a text can be written as it is. -/
def isPlainSafe (cs : List Char) : Bool :=
  let trimmed := Text.trim cs
  !isAmbiguous cs
    && !isWord ["y", "yes", "n", "no", "true", "false", "on", "off"] trimmed
    && !isWord ["nan", "inf", "+inf", "-inf"] cs
    && !hasBadStart cs && !hasKeyMark cs && trimmed.getLast? != some ':'
    && cs.all fun c => c != '#' && !isControl c

/-! ## Styles -/

/-- The styles in which texts are written. -/
inductive ScalarStyle where
  | plain
  | singleQuoted
  | doubleQuoted
  | literal
  | folded
  deriving DecidableEq

/-- Lines with more characters are folded, and long texts of several lines are literal blocks. -/
def maxWidth : Nat := 80

/-- A text without the line feeds at its end. -/
def dropBreaks (cs : List Char) : List Char := (cs.reverse.dropWhile (· = '\n')).reverse

/-- A text on one line: its last line feeds dropped and the others turned into spaces. -/
def onOneLine (cs : List Char) : List Char :=
  (dropBreaks cs).map fun c => if c = '\n' then ' ' else c

namespace ScalarStyle

/-- The style of a text that is written within its line. -/
def inline (cs : List Char) : ScalarStyle :=
  if cs = ['.'] ∨ cs = ['#'] ∨ cs = ['-'] then .singleQuoted
  else if isPlainSafe cs then .plain
  else .doubleQuoted

/-- The style of a text. -/
def of (cs : List Char) : ScalarStyle :=
  if cs.contains '\n' then
    if maxWidth < cs.length || isPlainSafe (onOneLine cs) then .literal else inline cs
  else if isPlainSafe cs && maxWidth < cs.length then .folded
  else inline cs

end ScalarStyle

/-- Whether a text can be written as it is before the colon of an entry. -/
def isPlainKey (cs : List Char) : Bool :=
  isPlainSafe cs && cs.all fun c => !([':', ',', '[', ']', '\x7b', '\x7d'].contains c)

end ForeignKey.Yaml
