/-
  Integers written as text.

  An integer is written as blanks, at most one sign, digits with single underscores between them,
  and blanks; leading zeros are fine.  In text that is not pure ASCII, digits of every script count
  and so do blanks beyond ASCII.  More than `digitLimit` digits are not read.

  1. `toAsciiNumeral?` — text beyond ASCII reduced to the digits and blanks it stands for;
  2. `digitRun?` — the digits without their underscores;
  3. `integer?` — the integer, if the text writes one.
-/
import NegationLint.Text.Blank
import NegationLint.Text.DecimalDigit
import NegationLint.Text.Numeral

namespace NegationLint

namespace Text

/-- The text with digits and blanks beyond ASCII replaced by those of ASCII; none if it holds
    anything else beyond ASCII. -/
def toAsciiNumeral? (t : Text) : Option Text :=
  t.mapM fun c =>
    if c.val < 0x7F then some c
    else if c.isBlank then some (CodePoint.ofChar ' ')
    else c.digitValue?.map CodePoint.ofDigit

/-- The digits of a run of digits with single underscores between them. -/
def digitRun? : Text → Option Text
  | [] => none
  | c :: rest =>
    if !c.isDecimal then none
    else match rest with
      | [] => some [c]
      | d :: more =>
        if d.is '_' then (digitRun? more).map (c :: ·) else (digitRun? (d :: more)).map (c :: ·)

/-- A sign, if there is one, and what follows it. -/
def signed (t : Text) : Int × Text :=
  match t with
  | [] => (1, [])
  | c :: rest => if c.is '-' then (-1, rest) else if c.is '+' then (1, rest) else (1, c :: rest)

/-- The integer that an ASCII text writes. -/
def asciiInteger? (t : Text) : Option Int :=
  let (sign, body) := (t.trim CodePoint.isAsciiBlank).signed
  (digitRun? body).bind fun digits =>
    if digitLimit < digits.length then none else some (sign * decimalValue digits)

/-- The integer that a text writes. -/
def integer? (t : Text) : Option Int :=
  if t.all (·.val < 0x80) then asciiInteger? t else t.toAsciiNumeral?.bind asciiInteger?

section Steps

variable {c d : CodePoint} {rest : Text}

theorem digitRun?_singleton (digit : c.isDecimal = true) : digitRun? [c] = some [c] := by
  rw [digitRun?.eq_def]
  simp only [digit]
  rfl

theorem digitRun?_underscore (digit : c.isDecimal = true) :
    digitRun? (c :: CodePoint.ofChar '_' :: rest) = (digitRun? rest).map (c :: ·) := by
  rw [digitRun?.eq_def]
  simp only [digit]
  rfl

theorem digitRun?_cons_cons (digit : c.isDecimal = true) (other : d.is '_' = false) :
    digitRun? (c :: d :: rest) = (digitRun? (d :: rest)).map (c :: ·) := by
  rw [digitRun?.eq_def]
  simp only [digit, other]
  rfl

end Steps

theorem asciiInteger?_eq (t : Text) :
    asciiInteger? t = (digitRun? (t.trim CodePoint.isAsciiBlank).signed.2).bind fun digits =>
      if digitLimit < digits.length then none
      else some ((t.trim CodePoint.isAsciiBlank).signed.1 * decimalValue digits) := rfl

end Text

end NegationLint
