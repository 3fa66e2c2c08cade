/-
  Blanks at the ends of a setting, and its case.

  A setting's value is read with surrounding blanks removed and letters in lower case.

  * `CodePoint.isBlank` — the White_Space characters of Unicode and the four information separators
    U+001C to U+001F;
  * `Text.strip` — the text without the blanks at its two ends;
  * `Text.toLowerAscii` — the Latin letters `A` to `Z` in lower case.  No other letter has a lower
    case made of Latin letters that occur in a word the settings know (the Kelvin sign goes to `k`,
    which is in none), so the comparison with those words needs no more.
-/
import NegationLint.Text.Basic

namespace NegationLint

namespace CodePoint

/-- White space in the Unicode sense, or an information separator. -/
def isBlank (c : CodePoint) : Bool :=
  (0x09 ≤ c.val && c.val ≤ 0x0D) || (0x1C ≤ c.val && c.val ≤ 0x20) || c.val == 0x85
    || c.val == 0xA0 || c.val == 0x1680 || (0x2000 ≤ c.val && c.val ≤ 0x200A)
    || c.val == 0x2028 || c.val == 0x2029 || c.val == 0x202F || c.val == 0x205F
    || c.val == 0x3000

/-- The blanks of ASCII text that may surround a number: tab, the line ends and the space. -/
def isAsciiBlank (c : CodePoint) : Bool := (0x09 ≤ c.val && c.val ≤ 0x0D) || c.val == 0x20

/-- The letter in lower case, if it is one of `A` to `Z`. -/
def toLowerAscii (c : CodePoint) : CodePoint :=
  if h : 0x41 ≤ c.val ∧ c.val ≤ 0x5A then ⟨c.val + 0x20, by omega⟩ else c

end CodePoint

namespace Text

/-- The text from its first code point that fails `p` to its last one that does. -/
def trim (p : CodePoint → Bool) (t : Text) : Text :=
  ((t.dropWhile p).reverse.dropWhile p).reverse

/-- The text without the blanks at its ends. -/
def strip (t : Text) : Text := t.trim CodePoint.isBlank

/-- Each of the letters `A` to `Z` in lower case, everything else as it is. -/
def toLowerAscii (t : Text) : Text := t.map CodePoint.toLowerAscii

/-- What is trimmed off stands at the two ends and passes the test. -/
theorem exists_trim (p : CodePoint → Bool) (t : Text) : ∃ before after : Text,
    t = before ++ (t.trim p ++ after) ∧ (∀ c ∈ before, p c = true) ∧ ∀ c ∈ after, p c = true := by
  have front : t.takeWhile p ++ t.dropWhile p = t := List.takeWhile_append_dropWhile
  have back : t.trim p ++ ((t.dropWhile p).reverse.takeWhile p).reverse = t.dropWhile p := by
    rw [trim, ← List.reverse_append, List.takeWhile_append_dropWhile, List.reverse_reverse]
  refine ⟨t.takeWhile p, ((t.dropWhile p).reverse.takeWhile p).reverse, ?_, ?_, ?_⟩
  · rw [back, front]
  · exact List.all_eq_true.1 List.all_takeWhile
  · intro c hc
    exact List.all_eq_true.1 List.all_takeWhile c (List.mem_reverse.1 hc)

/-- A text that begins and ends with something else is all that is left of it between what is trimmed. -/
theorem trim_between {p : CodePoint → Bool} {before t after : Text} (filled : t ≠ [])
    (front : ∀ c ∈ before, p c = true) (back : ∀ c ∈ after, p c = true)
    (first : t.head?.any p = false) (last : t.getLast?.any p = false) :
    (before ++ (t ++ after)).trim p = t := by
  have stays {u : Text} (rest : Text) (filled : u ≠ []) (first : u.head?.any p = false) :
      (u ++ rest).dropWhile p = u ++ rest := by
    cases u with
    | nil => exact absurd rfl filled
    | cons c u => exact List.dropWhile_cons_of_neg (Bool.not_eq_true _ ▸ first)
  have turned : t.reverse.head?.any p = false := by
    rw [List.head?_reverse]
    exact last
  have kept := stays [] (fun h => filled (List.reverse_eq_nil_iff.1 h)) turned
  rw [List.append_nil] at kept
  rw [trim, List.dropWhile_append_of_pos front, stays after filled first, List.reverse_append,
    List.dropWhile_append_of_pos (fun c hc => back c (List.mem_reverse.1 hc)), kept, List.reverse_reverse]

end Text

end NegationLint
