/-
  How an integer is spelled.

  An integer is spelled as spaces, at most one sign, decimal digits and spaces again.  There may be zeros in
  front of the digits that count, and one underscore between any two digits.

  * `DigitRun` — digits, with or without an underscore behind each but the last;
  * `Numeral` — a sign, if there is one, and such digits;
  * `Spelling` — a numeral and the spaces around it.

  This is a grammar with its trees as data: `text` writes a tree out, and `value` is the integer, by the places
  of the digits.  Nothing here says how a text is read.  EVERY tree is a spelling, and a reader may only
  object to the number of its digits.
-/
import Mathlib.Data.Nat.Digits.Defs
import NegationLint.Text.Numeral

namespace NegationLint

/-! ## Digits -/

/-- Decimal digits with single underscores between them. -/
inductive DigitRun
  | last (d : Fin 10)
  | next (d : Fin 10) (rest : DigitRun)
  | underscore (d : Fin 10) (rest : DigitRun)

namespace DigitRun

/-- The digits without the underscores, most significant first. -/
def digits : DigitRun → List Nat
  | last d => [d]
  | next d rest => d :: rest.digits
  | underscore d rest => d :: rest.digits

/-- The run as it is written. -/
def text : DigitRun → Text
  | last d => [CodePoint.ofDigit d]
  | next d rest => CodePoint.ofDigit d :: rest.text
  | underscore d rest => CodePoint.ofDigit d :: CodePoint.ofChar '_' :: rest.text

/-- The number: each digit by its place, the last one the ones. -/
def value (r : DigitRun) : Nat := Nat.ofDigits 10 r.digits.reverse

theorem lt_of_mem_digits {r : DigitRun} {d : Nat} (h : d ∈ r.digits) : d < 10 := by
  induction r with
  | last e =>
    obtain rfl := List.mem_singleton.1 h
    exact e.isLt
  | next e rest ih | underscore e rest ih =>
    rcases List.mem_cons.1 h with rfl | h
    · exact e.isLt
    · exact ih h

theorem exists_cons_text (r : DigitRun) : ∃ (d : Fin 10) (rest : Text), r.text = CodePoint.ofDigit d :: rest := by
  cases r with
  | last d => exact ⟨d, [], rfl⟩
  | next d rest => exact ⟨d, rest.text, rfl⟩
  | underscore d rest => exact ⟨d, CodePoint.ofChar '_' :: rest.text, rfl⟩

theorem mem_text {r : DigitRun} {c : CodePoint} (h : c ∈ r.text) :
    (∃ d : Fin 10, c = CodePoint.ofDigit d) ∨ c = CodePoint.ofChar '_' := by
  induction r with
  | last d => exact Or.inl ⟨d, List.mem_singleton.1 h⟩
  | next d rest ih =>
    rcases List.mem_cons.1 h with rfl | h
    · exact Or.inl ⟨d, rfl⟩
    · exact ih h
  | underscore d rest ih =>
    rcases List.mem_cons.1 h with rfl | h
    · exact Or.inl ⟨d, rfl⟩
    · rcases List.mem_cons.1 h with rfl | h
      · exact Or.inr rfl
      · exact ih h

end DigitRun

/-! ## Sign and spaces -/

/-- The sign of a numeral. -/
inductive Sign
  | unsigned | plus | minus

namespace Sign

def text : Sign → Text
  | unsigned => []
  | plus => [CodePoint.ofChar '+']
  | minus => [CodePoint.ofChar '-']

/-- What the sign multiplies the number by. -/
def factor : Sign → Int
  | unsigned => 1
  | plus => 1
  | minus => -1

end Sign

/-- Digits with at most one sign in front of them. -/
structure Numeral where
  sign : Sign
  run : DigitRun

namespace Numeral

def text (m : Numeral) : Text := m.sign.text ++ m.run.text

def value (m : Numeral) : Int := m.sign.factor * m.run.value

theorem text_ne_nil (m : Numeral) : m.text ≠ [] := by
  obtain ⟨d, rest, first⟩ := m.run.exists_cons_text
  rw [text, first]
  exact List.append_ne_nil_of_right_ne_nil _ (List.cons_ne_nil _ _)

end Numeral

/-- A numeral with that many spaces in front of it and behind it. -/
structure Spelling where
  before : Nat
  numeral : Numeral
  after : Nat

namespace Spelling

/-- That many spaces. -/
def spaces (n : Nat) : Text := List.replicate n (CodePoint.ofChar ' ')

/-- The integer that is spelled. -/
def value (s : Spelling) : Int := s.numeral.value

/-- The digits, zeros in front included. -/
def digits (s : Spelling) : List Nat := s.numeral.run.digits

/-- The text that spells it. -/
def text (s : Spelling) : Text := spaces s.before ++ (s.numeral.text ++ spaces s.after)

end Spelling

end NegationLint
