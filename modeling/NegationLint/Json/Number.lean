/-
  JSON numbers, kept as they are written.

  A numeral without a point and without an exponent is an INTEGER of any size.  Every other numeral
  is a decimal `mantissa · 10 ^ exponent`, and the two stay apart: `1` may serve as an offset into a
  text, `1.0` may not, although both pass as whole numbers.  The words for "not a number" and the
  two infinities are numbers as well.

  `Number.integer?` is the whole number that a numeral denotes.  A decimal denotes the nearest number
  of the binary64 format (a tie goes to the even significand), so the question is asked of that one:
  `1e400` is infinite and denotes none, `1.00000000000000000001` denotes one, `1e-400` denotes zero.

  1. `roundHalfEven` — a quotient rounded to the nearest whole number, exact, in `Nat`;
  2. `wholeBinary64?` — the quotient rounded to binary64, if that is a whole number;
  3. `Number.integer?` — the same for a numeral.
-/
import NegationLint.Text.Numeral

namespace NegationLint

/-- A number as a JSON text writes it. -/
inductive Number
  /-- written without point and exponent -/
  | int (value : Int)
  /-- `mantissa · 10 ^ exponent`, written with a point or an exponent -/
  | decimal (mantissa exponent : Int)
  | notANumber
  | infinite (negative : Bool)
deriving DecidableEq

/-! ## Rounding a quotient -/

/-- `num / den` to the nearest whole number, a tie to the even one. -/
def roundHalfEven (num den : Nat) : Nat :=
  let q := num / den
  let r := num % den
  if 2 * r < den then q else if den < 2 * r then q + 1 else q + q % 2

/-- `2 ^ n` as a whole number; nothing below the exponent zero. -/
def twoTo (n : Int) : Nat := Nat.pow 2 n.toNat

/-- The power of two that the last bit of `num / den` counts, in a format of 53 bits whose smallest
    step is `2 ^ -1074`. -/
def lastBit (num den : Nat) : Int :=
  let q : Int := (num.log2 : Int) - den.log2 - 53
  let tooWide := if 0 ≤ q then den * twoTo (q + 53) ≤ num else den * twoTo 53 ≤ num * twoTo (-q)
  max (if tooWide then q + 1 else q) (-1074)

/-- `num / den` (with `den` positive) rounded to binary64, if the result is finite and whole. -/
def wholeBinary64? (num den : Nat) : Option Nat :=
  let q := lastBit num den
  if 0 ≤ q then
    let n := roundHalfEven num (den * twoTo q) * twoTo q
    if n < twoTo 1024 then some n else none
  else
    let unit := twoTo (-q)
    let significand := roundHalfEven (num * unit) den
    if significand % unit = 0 then some (significand / unit) else none

/-! ## The whole number of a numeral -/

/-- The whole number that a magnitude `mantissa · 10 ^ exponent` denotes.  Magnitudes of more than 310
    places before the point are infinite, and those whose first digit stands more than 330 places
    behind it are zero: the two ends are decided before any power is taken. -/
def wholeDecimal? (mantissa : Nat) (exponent : Int) : Option Nat :=
  let places := ((digits 10 mantissa).length : Int) + exponent
  if mantissa = 0 ∨ places < -330 then some 0
  else if 310 < places then none
  else if 0 ≤ exponent then wholeBinary64? (mantissa * Nat.pow 10 exponent.toNat) 1
  else wholeBinary64? mantissa (Nat.pow 10 (-exponent).toNat)

namespace Number

/-- The whole number that a numeral denotes, if it denotes one. -/
def integer? : Number → Option Int
  | .int n => some n
  | .decimal mantissa exponent =>
    (wholeDecimal? mantissa.natAbs exponent).map fun n => if mantissa < 0 then -n else n
  | .notANumber => none
  | .infinite _ => none

end Number

end NegationLint
