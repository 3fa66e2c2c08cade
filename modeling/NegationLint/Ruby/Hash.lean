/-
  Ruby hashes from names to numbers.

  Such a hash is a pair of braces around its entries, with a comma and a space between any two of them.  An
  entry is a key, an arrow with a space on either side, and digits.  A key is a literal of one of these forms:

  * a string, between double quotes;
  * a symbol, quoted like a string behind a colon;
  * a symbol with anything behind its colon that has no space in it and does not begin with a quote.

  All of the separators can stand in a quoted key, and commas, braces and digits in a bare one.  This is a
  grammar: it says how a text can be cut into entries, and not how to find the places where to cut.  Only
  the end of a key is found, if a space stands behind it: `readKey` looks for a colon first.
-/
import NegationLint.Ruby.Reader

namespace NegationLint

namespace Ruby

/-- A key of a hash. -/
inductive Key
  | string (value : Text)
  | symbol (name : Text)
deriving DecidableEq

/-- What the key is called. -/
def Key.text : Key → Text
  | string value => value
  | symbol name => name

/-- The text is a literal of the key. -/
inductive Literal : Key → Text → Prop
  | string {value t : Text} (read : readQuoted t = some (value, [])) : Literal (.string value) t
  | quotedSymbol {name t : Text} (read : readQuoted t = some (name, [])) :
      Literal (.symbol name) (CodePoint.ofChar ':' :: t)
  | bareSymbol {name : Text} (closed : ∀ c ∈ name, c.is ' ' = false)
      (unquoted : name.head?.any (·.is '"') = false) :
      Literal (.symbol name) (CodePoint.ofChar ':' :: name)

/-- The key in front of a text, and what follows it. -/
def readKey (t : Text) : Option (Key × Text) :=
  if t.head?.any (·.is ':') then (readSymbol t).map (Prod.map .symbol id)
  else (readQuoted t).map (Prod.map .string id)

/-- An entry with its two parts as they are written. -/
structure Entry where
  key : Key
  literal : Text
  digits : Text

namespace Entry

/-- The number that the key is mapped to. -/
def index (e : Entry) : Nat := Text.decimalValue e.digits

/-- The entry as it is written. -/
def text (e : Entry) : Text := e.literal ++ ((" => " : Text) ++ e.digits)

/-- The parts of the entry are what they are taken for. -/
structure IsProper (e : Entry) : Prop where
  literal : Literal e.key e.literal
  digits : e.digits ≠ [] ∧ ∀ c ∈ e.digits, c.isDecimal = true

end Entry

/-- A hash of these entries. -/
def hashOf (entries : List Entry) : Text :=
  CodePoint.ofChar '\x7b' :: (List.intercalate (", " : Text) (entries.map Entry.text)
    ++ [CodePoint.ofChar '\x7d'])

/-- The text can be read as a hash of these entries. -/
structure IsReading (t : Text) (entries : List Entry) : Prop where
  proper : ∀ e ∈ entries, e.IsProper
  text : hashOf entries = t

end Ruby

end NegationLint
