/-
  Double-quoted Ruby literals.

  A text is written between double quotes with what Ruby would read differently escaped: the quote,
  the backslash, control characters, and a number sign where Ruby would begin an interpolation
  (before an opening brace, a dollar or an at sign).  There are two ways to treat text beyond ASCII:

  * `dump` — pure ASCII: every other code point is escaped;
  * `inspect` — printable text is kept and only the rest is escaped.

  Escapes have upper-case hexadecimal digits: `\xHH` for ASCII, `\uHHHH` up to U+FFFF, and braces
  around as many digits as it takes beyond that.
-/
import NegationLint.Text.Numeral
import NegationLint.Text.Printable

namespace NegationLint

namespace Ruby

/-- The escape of the code points that have one of their own. -/
def namedEscape? (c : CodePoint) : Option Text :=
  if c.is '"' then some "\\\""
  else if c.is '\\' then some "\\\\"
  else if c.is '\n' then some "\\n"
  else if c.is '\r' then some "\\r"
  else if c.is '\t' then some "\\t"
  else if c.val = 0x0C then some "\\f"
  else if c.val = 0x0B then some "\\v"
  else if c.val = 0x08 then some "\\b"
  else if c.val = 0x07 then some "\\a"
  else if c.val = 0x1B then some "\\e"
  else none

/-- A number sign before this one begins an interpolation. -/
def opensInterpolation (c : CodePoint) : Bool := c.is '\x7b' || c.is '$' || c.is '@'

/-- A code point above ASCII by its number. -/
def unicodeEscape (c : CodePoint) : Text :=
  if c.val ≤ 0xFFFF then ("\\u" : Text) ++ Text.hexFixed 4 c.val
  else ("\\u\x7b" : Text) ++ (Text.hex c.val ++ ("\x7d" : Text))

/-- One code point of a literal; `next` follows it, and `keep` says which code points above ASCII
    stand for themselves. -/
def escape (keep : CodePoint → Bool) (c : CodePoint) (next : Option CodePoint) : Text :=
  match namedEscape? c with
  | some t => t
  | none =>
    if c.is '#' then if next.any opensInterpolation then "\\#" else "#"
    else if 0x20 ≤ c.val ∧ c.val < 0x7F then [c]
    else if c.val < 0x80 then ("\\x" : Text) ++ Text.hexFixed 2 c.val
    else if keep c then [c]
    else unicodeEscape c

/-- The inside of a literal: each code point escaped in view of the one behind it. -/
def escapeAll (keep : CodePoint → Bool) (t : Text) : Text :=
  (t.zip (t.tail.map some ++ [none])).flatMap fun (c, next) => escape keep c next

/-- A text between double quotes. -/
def quoted (keep : CodePoint → Bool) (t : Text) : Text :=
  CodePoint.ofChar '"' :: (escapeAll keep t ++ [CodePoint.ofChar '"'])

/-- The literal in pure ASCII. -/
def dump (t : Text) : Text := quoted (fun _ => false) t

/-- The literal with printable text kept. -/
def inspect (t : Text) : Text := quoted CodePoint.isPrintable t

/-- The inside of a literal, one code point at a time. -/
theorem escapeAll_cons (keep : CodePoint → Bool) (c : CodePoint) (t : Text) :
    escapeAll keep (c :: t) = escape keep c t.head? ++ escapeAll keep t := by
  cases t with
  | nil => simp [escapeAll]
  | cons d t => simp [escapeAll]

end Ruby

end NegationLint
