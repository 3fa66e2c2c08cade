/-
  Ruby's double-quoted literals and symbols read back.

  The reader stands for Ruby's own: it takes one literal off the front of a text and gives its value and what
  follows.  It is strict about what a literal may hold:

  * an escape is a backslash and one letter or mark that Ruby knows, or `\x` with two hexadecimal digits,
    `\u` with four of them, or `\u` with any number of them between braces;
  * half of a surrogate pair is refused, however it is spelled;
  * the first quote that is not escaped ends the literal;
  * a number sign that is not escaped, right before an opening brace, a dollar or an at sign, begins an
    interpolation.  The text of the literal would then depend on the program, so it is refused.

  An escape is read in view of all that follows, and only then passed over: `inside` counts the code points
  that it has yet to pass, so that the reader goes through a text one code point at a time.

  A symbol is a colon and such a literal, or a colon and anything else up to the first space.
-/
import NegationLint.Ruby.Quoted

namespace NegationLint

namespace Ruby

/-- The code point that a backslash and this one stand for. -/
def named? (c : CodePoint) : Option CodePoint :=
  if c.is '"' || c.is '\\' || c.is '#' then some c
  else if c.is 'n' then some (CodePoint.ofChar '\n')
  else if c.is 'r' then some (CodePoint.ofChar '\r')
  else if c.is 't' then some (CodePoint.ofChar '\t')
  else if c.is 'f' then some (CodePoint.ofChar '\x0c')
  else if c.is 'v' then some (CodePoint.ofChar '\x0b')
  else if c.is 'b' then some (CodePoint.ofChar '\x08')
  else if c.is 'a' then some (CodePoint.ofChar '\x07')
  else if c.is 'e' then some (CodePoint.ofChar '\x1b')
  else none

/-- The number that a text of hexadecimal digits denotes. -/
def hexValue? (t : Text) : Option Nat := t.foldlM (fun n c => c.hex?.map (16 * n + ·)) 0

/-- The code point of these hexadecimal digits, unless it is half of a surrogate pair. -/
def spelled? (t : Text) : Option CodePoint :=
  ((hexValue? t).bind CodePoint.ofNat?).filter (!·.isSurrogate)

/-- The code point of the first `width` digits. -/
def fixed? (width : Nat) (t : Text) : Option CodePoint :=
  if width ≤ t.length then spelled? (t.take width) else none

/-- The code point of the digits up to a closing brace, and how many digits there are. -/
def braced? (t : Text) : Option (CodePoint × Nat) :=
  let digits := t.takeWhile (!·.is '\x7d')
  if 0 < digits.length ∧ digits.length < t.length then (spelled? digits).map (·, digits.length)
  else none

/-- The code point of the escape behind a backslash, and how many code points that escape has. -/
def readEscape : Text → Option (CodePoint × Nat)
  | [] => none
  | c :: t =>
    match named? c with
    | some d => some (d, 1)
    | none =>
      if c.is 'x' then (fixed? 2 t).map (·, 3)
      else if c.is 'u' then
        if t.head?.any (·.is '\x7b') then (braced? t.tail).map (Prod.map id (· + 3))
        else (fixed? 4 t).map (·, 5)
      else none

/-- A code point in front of what has been read. -/
def readBefore (c : CodePoint) : Text × Text → Text × Text := Prod.map (c :: ·) id

/-- The inside of a literal up to the quote that ends it, and what follows.  The first `skip` code
    points belong to an escape that has been read. -/
def inside : Nat → Text → Option (Text × Text)
  | _, [] => none
  | skip + 1, _ :: t => inside skip t
  | 0, c :: t =>
    if c.is '"' then some ([], t)
    else if c.is '\\' then (readEscape t).bind fun e => (inside e.2 t).map (readBefore e.1)
    else if c.is '#' && t.head?.any opensInterpolation then none
    else (inside 0 t).map (readBefore c)

/-- A literal in front of a text: its value, and what follows it. -/
def readQuoted : Text → Option (Text × Text)
  | [] => none
  | c :: t => if c.is '"' then inside 0 t else none

/-- A symbol in front of a text: its value, and what follows it. -/
def readSymbol : Text → Option (Text × Text)
  | [] => none
  | c :: t =>
    if !c.is ':' then none
    else if t.head?.any (·.is '"') then readQuoted t
    else some (t.takeWhile (!·.is ' '), t.dropWhile (!·.is ' '))

end Ruby

end NegationLint
