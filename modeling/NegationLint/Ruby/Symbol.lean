/-
  Ruby symbol literals.

  A symbol is written bare (`:name`) when its text is a name or an operator that Ruby reads back
  after the colon, and quoted (`:"any text"`) otherwise.  Bare are

  * a method, local variable or constant name, with at most one of `?`, `!`, `=` behind it;
  * an instance or class variable: one or two at signs and a name;
  * a global variable: a dollar and a name, a punctuation mark of the special globals, a match
    number without a leading zero, or a dash and one letter, digit or underscore;
  * an operator that can be a method.

  Every code point above ASCII counts as a letter of a name.
-/
import NegationLint.Ruby.Quoted

namespace NegationLint

namespace Ruby

/-- An ASCII letter, an underscore, or anything above ASCII. -/
def isNameStart (c : CodePoint) : Bool :=
  c.within 'A' 'Z' || c.within 'a' 'z' || c.is '_' || 0x80 ≤ c.val

/-- What may follow inside a name: digits too. -/
def isNameChar (c : CodePoint) : Bool := isNameStart c || c.isDecimal

/-- A name: a letter, then letters and digits. -/
def isName : Text → Bool
  | [] => false
  | c :: rest => isNameStart c && rest.all isNameChar

/-- A name with at most one mark behind it. -/
def isMethodName (t : Text) : Bool :=
  isName t || match t.getLast? with
    | some c => (c.is '?' || c.is '!' || c.is '=') && isName t.dropLast
    | none => false

/-- The punctuation of the special global variables. -/
def specialGlobals : Text := "~*$?!@/\\;,.=:<>\"&`'+0_"

/-- What may stand behind the dollar of a global variable. -/
def isGlobalName (t : Text) : Bool :=
  isName t || match t with
    | [] => false
    | [c] => specialGlobals.contains c || c.within '1' '9'
    | c :: rest =>
      (c.within '1' '9' && rest.all CodePoint.isDecimal)
        || (c.is '-' && match rest with
          | [d] => isNameChar d && d.val < 0x80
          | _ => false)

/-- The operators that are method names. -/
def operators : List Text := ["+", "-", "*", "/", "%", "**", "==", "===", "!=", "=~", "!~", "!",
  "<", ">", "<=", ">=", "<=>", "<<", ">>", "&", "|", "^", "~", "+@", "-@", "[]", "[]=", "`"]

/-- The symbol of this text is written bare. -/
def isBareSymbol (t : Text) : Bool :=
  operators.contains t || isMethodName t || match t with
    | [] => false
    | c :: rest =>
      (c.is '@' && (isName rest || match rest with
        | d :: rest => d.is '@' && isName rest
        | [] => false))
      || (c.is '$' && isGlobalName rest)

/-- The symbol literal of a text. -/
def inspectSymbol (t : Text) : Text :=
  CodePoint.ofChar ':' :: if isBareSymbol t then t else inspect t

end Ruby

end NegationLint
