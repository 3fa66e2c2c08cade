/-
  The size of a text in UTF-8.

  A code point takes one to four bytes, and the size of a text is the sum.  Only the size is needed:
  the limit on a source buffer is a limit in BYTES, while every offset counts code points.  Half of
  a surrogate pair has no encoding, so a text that holds one has no size.
-/
import NegationLint.Text.Basic

namespace NegationLint

/-- How many bytes a code point takes in UTF-8. -/
def CodePoint.utf8Size (c : CodePoint) : Nat :=
  if c.val < 0x80 then 1
  else if c.val < 0x800 then 2
  else if c.val < 0x10000 then 3
  else 4

namespace Text

/-- The number of bytes of the text in UTF-8; none if it cannot be encoded. -/
def utf8Size? (t : Text) : Option Nat :=
  if t.isEncodable then some (t.foldl (fun n c => n + c.utf8Size) 0) else none

/-- Only half of a surrogate pair keeps a text from having a size. -/
theorem utf8Size?_eq_none_iff {t : Text} : t.utf8Size? = none ↔ ∃ c ∈ t, c.isSurrogate = true := by
  have half : t.isEncodable = false ↔ ∃ c ∈ t, c.isSurrogate = true := by
    simp [isEncodable]
  rw [utf8Size?, ← half]
  cases t.isEncodable <;> simp

end Text

end NegationLint
