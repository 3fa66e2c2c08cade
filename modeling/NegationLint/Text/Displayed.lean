/-
  A text shown between quotes.

  A message that names a text shows it between single quotes, or between double quotes if it holds
  single ones and no double one.  The quote in use, the backslash, and everything not printable are
  escaped: line ends and the tab by their letter, the rest by two, four or eight lower-case
  hexadecimal digits.
-/
import NegationLint.Text.Numeral
import NegationLint.Text.Printable

namespace NegationLint

namespace Text

/-- One code point between these quotes. -/
def displayOne (mark c : CodePoint) : Text :=
  if c = mark || c.is '\\' then [CodePoint.ofChar '\\', c]
  else if c.is '\n' then "\\n"
  else if c.is '\r' then "\\r"
  else if c.is '\t' then "\\t"
  else if c.isPrintable then [c]
  else if c.val ≤ 0xFF then ("\\x" : Text) ++ hexFixedLower 2 c.val
  else if c.val ≤ 0xFFFF then ("\\u" : Text) ++ hexFixedLower 4 c.val
  else ("\\U" : Text) ++ hexFixedLower 8 c.val

/-- The text between quotes. -/
def displayed (t : Text) : Text :=
  let single := CodePoint.ofChar '\''
  let double := CodePoint.ofChar '"'
  let mark := if t.contains single && !t.contains double then double else single
  mark :: (t.flatMap (displayOne mark) ++ [mark])

end Text

end NegationLint
