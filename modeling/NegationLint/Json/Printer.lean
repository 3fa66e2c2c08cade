/-
  JSON values written as text, on one line.

  Items are separated by a comma and a space, a key and its value by a colon and a space.  In a
  string, the quote, the backslash and the control characters below U+0020 are escaped; every other
  code point stands for itself, so text of any script stays readable.
-/
import NegationLint.Json.Basic

namespace NegationLint

namespace Json

/-- One code point inside a JSON string. -/
def escape (c : CodePoint) : Text :=
  if c.is '"' then "\\\""
  else if c.is '\\' then "\\\\"
  else if c.is '\n' then "\\n"
  else if c.is '\r' then "\\r"
  else if c.is '\t' then "\\t"
  else if c.val = 0x0C then "\\f"
  else if c.val = 0x08 then "\\b"
  else if c.val < 0x20 then ("\\u" : Text) ++ Text.hexFixedLower 4 c.val
  else [c]

/-- A string between quotes. -/
def quote (t : Text) : Text := CodePoint.ofChar '"' :: (t.flatMap escape ++ [CodePoint.ofChar '"'])

/-- A number.  A decimal is written by its mantissa and its exponent, which is how it is kept. -/
def renderNumber : Number → Text
  | .int n => Text.ofInt n
  | .decimal mantissa exponent => Text.ofInt mantissa ++ ("e" : Text) ++ Text.ofInt exponent
  | .notANumber => "NaN"
  | .infinite negative => if negative then "-Infinity" else "Infinity"

mutual

/-- A value as JSON text. -/
def render : Json → Text
  | .null => "null"
  | .bool b => if b then "true" else "false"
  | .num n => renderNumber n
  | .str t => quote t
  | .arr items => CodePoint.ofChar '[' :: (renderItems items ++ ("]" : Text))
  | .obj fields => CodePoint.ofChar '\x7b' :: (renderFields fields ++ [CodePoint.ofChar '\x7d'])

/-- The items of an array with their separators. -/
def renderItems : List Json → Text
  | [] => []
  | [item] => render item
  | item :: items => render item ++ ((", " : Text) ++ renderItems items)

/-- The fields of an object with their separators. -/
def renderFields : List (Text × Json) → Text
  | [] => []
  | [(key, value)] => quote key ++ ((": " : Text) ++ render value)
  | (key, value) :: fields =>
    quote key ++ ((": " : Text) ++ (render value ++ ((", " : Text) ++ renderFields fields)))

end

end Json

end NegationLint
