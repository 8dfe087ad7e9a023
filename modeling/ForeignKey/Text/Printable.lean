import ForeignKey.Text.Printable.Ranges

/-!
# Printable characters and quoted text

A message that quotes a text shows it between double quotes, with a short escape for the quote, the
backslash, the line breaks, the tab and NUL, and with the number of every other character that would
not be seen as itself: control, format, private-use and unassigned characters, separators other than
the space, characters that are ignored by default, and the marks that extend the one before them.
-/

namespace ForeignKey.Text

/-- Whether a character is seen as itself in a quoted text. -/
def isPrintable (c : Char) : Bool :=
  !unprintableRanges.any fun (low, high) => low ≤ c.toNat && c.toNat ≤ high

/-- The lower-case hexadecimal numeral of a code point, without leading zeros. -/
def codePointText (c : Char) : String := String.ofList (Nat.toDigits 16 c.toNat)

/-- A character inside a quoted text. -/
def shownChar (c : Char) : String :=
  if c = '\x22' then "\\\""
  else if c = '\\' then "\\\\"
  else if c = '\n' then "\\n"
  else if c = '\x0d' then "\\r"
  else if c = '\t' then "\\t"
  else if c.toNat = 0 then "\\0"
  else if isPrintable c then String.ofList [c]
  else "\\u\x7b" ++ codePointText c ++ "\x7d"

/-- A text in quotes, as messages show it. -/
def shown (s : String) : String :=
  "\"" ++ s.toList.foldl (fun text c => text ++ shownChar c) "" ++ "\""

end ForeignKey.Text
