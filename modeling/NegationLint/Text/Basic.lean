/-
  Text as a list of code points.

  Ruby source, JSON strings and file names reach the linter as sequences of Unicode CODE POINTS,
  and every offset, length and column counts them one by one.  A JSON string may spell half of a
  surrogate pair by its escape alone, so text is wider than `List Char`:

  * `CodePoint` — any number below `0x110000`, surrogates included;
  * `Text` — a list of code points, so that every law of lists is a law of text;
  * `Text.slice` — the half-open piece between two offsets, clamped to the text: an offset past the
    end means the end, and an end before the beginning gives nothing.

  Fixed words are written as string literals and coerced (`("enum" : Text)`); `CodePoint.is` compares
  with a character literal without leaving the numbers.
-/

namespace NegationLint

/-- A Unicode code point, surrogates included. -/
structure CodePoint where
  val : Nat
  isLt : val < 0x110000
deriving DecidableEq

namespace CodePoint

theorem toNat_lt (c : Char) : c.toNat < 0x110000 := by
  have h := c.valid
  unfold UInt32.isValidChar Nat.isValidChar at h
  have e : c.toNat = c.val.toNat := rfl
  omega

/-- The code point of a character. -/
def ofChar (c : Char) : CodePoint := ⟨c.toNat, toNat_lt c⟩

/-- The code point of that number, if there is one. -/
def ofNat? (n : Nat) : Option CodePoint := if h : n < 0x110000 then some ⟨n, h⟩ else none

instance : Coe Char CodePoint := ⟨ofChar⟩

instance : Inhabited CodePoint := ⟨ofChar ' '⟩

/-- `c.is 'x'` — `c` is the code point of that character. -/
def is (c : CodePoint) (x : Char) : Bool := c.val == x.toNat

/-- `lo ≤ c ≤ hi`, both ends included. -/
def within (c : CodePoint) (lo hi : Char) : Bool := lo.toNat ≤ c.val && c.val ≤ hi.toNat

/-- Half of a surrogate pair: a code point that no encoding form can write on its own. -/
def isSurrogate (c : CodePoint) : Bool := 0xD800 ≤ c.val && c.val ≤ 0xDFFF

theorem ext_val {c d : CodePoint} (h : c.val = d.val) : c = d := by
  cases c; cases d; simp_all

theorem is_iff {c : CodePoint} {x : Char} : c.is x = true ↔ c = ofChar x :=
  ⟨fun h => ext_val (by rw [ofChar]; exact eq_of_beq h), fun h => by rw [h]; exact beq_self_eq_true _⟩

end CodePoint

/-- A sequence of code points. -/
abbrev Text := List CodePoint

namespace Text

/-- The code points of a string, in order. -/
def ofString (s : String) : Text := s.toList.map CodePoint.ofChar

instance : Coe String Text := ⟨ofString⟩

/-- The piece of `t` from offset `begin` up to offset `stop`, clamped to the text. -/
def slice (t : Text) (begin stop : Int) : Text := (t.drop begin.toNat).take (stop.toNat - begin.toNat)

/-- A text without half surrogate pairs, which is what can be encoded. -/
def isEncodable (t : Text) : Bool := t.all (!·.isSurrogate)

/-- The pieces between separators: always one more than there are separators. -/
def splitOn (separator : CodePoint) : Text → List Text
  | [] => [[]]
  | c :: rest =>
    if c = separator then [] :: splitOn separator rest
    else match splitOn separator rest with
      | [] => [[c]]
      | piece :: pieces => (c :: piece) :: pieces

theorem splitOn_ne_nil (separator : CodePoint) (t : Text) : splitOn separator t ≠ [] := by
  cases t with
  | nil => exact List.cons_ne_nil _ _
  | cons c rest =>
    rw [splitOn]
    split
    · exact List.cons_ne_nil _ _
    · split <;> exact List.cons_ne_nil _ _

/-- A text without a separator is one piece. -/
theorem splitOn_of_not_mem {separator : CodePoint} {t : Text} (h : separator ∉ t) :
    splitOn separator t = [t] := by
  induction t with
  | nil => rfl
  | cons c rest ih =>
    have other : c ≠ separator := (List.ne_of_not_mem_cons h).symm
    rw [splitOn, if_neg other, ih (List.not_mem_of_not_mem_cons h)]

/-- The pieces around a separator are those in front of it and those behind it. -/
theorem splitOn_append (separator : CodePoint) (front back : Text) :
    splitOn separator (front ++ separator :: back)
      = splitOn separator front ++ splitOn separator back := by
  induction front with
  | nil => exact if_pos rfl
  | cons c rest ih =>
    rw [List.cons_append, splitOn, splitOn, ih]
    split
    · rfl
    · -- the code point goes to the first piece, which is one of those in front
      cases pieces : splitOn separator rest with
      | nil => exact absurd pieces (splitOn_ne_nil separator rest)
      | cons piece others => rfl

theorem isEncodable_cons {c : CodePoint} {t : Text} :
    isEncodable (c :: t) = true ↔ c.isSurrogate = false ∧ t.isEncodable = true := by
  rw [isEncodable, List.all_cons, Bool.and_eq_true, Bool.not_eq_true']
  exact Iff.rfl

/-- A piece inside the text has exactly as many code points as its two offsets are apart. -/
theorem length_slice {t : Text} {begin stop : Int} (h₀ : 0 ≤ begin) (h₁ : begin ≤ stop)
    (h₂ : stop ≤ t.length) : ((t.slice begin stop).length : Int) = stop - begin := by
  simp only [slice, List.length_take, List.length_drop]
  omega

end Text

end NegationLint
