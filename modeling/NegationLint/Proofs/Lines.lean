/-
  Lines and columns.

  A buffer finds the place of an offset by its list of line beginnings.  The place can be said without
  that list, by the text in front of the offset alone:

  1. `Text.newlines`, `Text.lastLine` — how many newlines a text has, and how many code points stand
     behind the last of them;
  2. `takeWhile_lineStartsFrom` — THE CRUX: the line beginnings up to an offset are the line beginnings
     of the text in front of it;
  3. `line_span`, `column_span` — the line of an offset is one more than the newlines in front of it, and
     its column is the length of the last line in front of it;
  4. `getElem?_lineStarts_span`, `exists_start_span` — where that line begins: at the line beginning of its
     number, behind a newline and in front of no other;
  5. `lt_iff_place_lt` — offsets ascend as their places do, and `place_of_offset` puts all this together.
-/
import Mathlib.Data.List.Induction
import NegationLint.Source

namespace NegationLint

namespace Text

/-- The number of newlines of a text. -/
def newlines (t : Text) : Nat := t.countP (·.is '\n')

/-- The number of code points behind the last newline of a text; all of them if there is none. -/
def lastLine (t : Text) : Nat := (t.reverse.takeWhile fun c => !c.is '\n').length

theorem newlines_append (t u : Text) : newlines (t ++ u) = newlines t + newlines u :=
  List.countP_append

theorem lastLine_concat (t : Text) (c : CodePoint) :
    lastLine (t ++ [c]) = if c.is '\n' then 0 else lastLine t + 1 := by
  rw [lastLine, List.reverse_append, List.reverse_singleton, List.singleton_append,
    List.takeWhile_cons]
  cases c.is '\n' <;> rfl

/-- A text goes on with the last line of the text in front of it until its first newline. -/
theorem lastLine_append (t u : Text) :
    lastLine (t ++ u) = if newlines u = 0 then lastLine t + u.length else lastLine u := by
  induction u using List.reverseRecOn with
  | nil =>
    rw [List.append_nil]
    exact (if_pos rfl).symm
  | append_singleton u c ih =>
    have counted : newlines (u ++ [c]) = newlines u + if c.is '\n' then 1 else 0 := by
      rw [newlines_append]
      cases hc : c.is '\n' <;> simp [newlines, hc]
    rw [← List.append_assoc, lastLine_concat, lastLine_concat, ih, counted, List.length_append,
      List.length_singleton]
    cases c.is '\n' with
    | true => simp
    | false =>
      simp only [Bool.false_eq_true, if_false, Nat.add_zero]
      split <;> omega

/-- A text without newlines is one line. -/
theorem lastLine_eq_length {t : Text} (h : newlines t = 0) : lastLine t = t.length := by
  have := lastLine_append [] t
  rw [List.nil_append, if_pos h] at this
  rw [this]
  exact Nat.zero_add _

/-! ## Line beginnings -/

theorem lineStartsFrom_concat (offset : Int) (t : Text) (c : CodePoint) :
    lineStartsFrom offset (t ++ [c])
      = lineStartsFrom offset t ++ if c.is '\n' then [offset + t.length + 1] else [] := by
  induction t generalizing offset with
  | nil =>
    rw [List.nil_append, lineStartsFrom, lineStartsFrom, lineStartsFrom]
    simp
  | cons d t ih =>
    have same : offset + 1 + (t.length : Int) + 1 = offset + (d :: t).length + 1 := by
      rw [List.length_cons]
      omega
    rw [List.cons_append, lineStartsFrom, lineStartsFrom, ih, same]
    split <;> rfl

theorem length_lineStartsFrom (offset : Int) (t : Text) :
    (lineStartsFrom offset t).length = newlines t := by
  induction t generalizing offset with
  | nil => rfl
  | cons c t ih =>
    rw [lineStartsFrom, newlines, List.countP_cons]
    split
    · rw [List.length_cons, ih]
      rfl
    · rw [ih]
      rfl

/-- The last line of a text begins where the code points behind its last newline do. -/
theorem getLast?_lineStarts (t : Text) :
    t.lineStarts.getLast? = some (t.length - lastLine t : Int) := by
  induction t using List.reverseRecOn with
  | nil => rfl
  | append_singleton t c ih =>
    rw [lineStarts] at ih ⊢
    rw [lineStartsFrom_concat, lastLine_concat, List.length_append, List.length_singleton]
    cases c.is '\n' with
    | true =>
      rw [if_pos rfl, if_pos rfl, ← List.cons_append, List.getLast?_concat]
      congr 1
      omega
    | false =>
      simp only [Bool.false_eq_true, if_false, List.append_nil]
      rw [ih]
      congr 1
      omega

/-- **The crux.**  Up to an offset, the lines of a text begin where those of the text in front of the
    offset do. -/
theorem takeWhile_lineStartsFrom (offset begin : Int) (t : Text) :
    (lineStartsFrom offset t).takeWhile (· ≤ begin)
      = lineStartsFrom offset (t.take (begin - offset).toNat) := by
  induction t generalizing offset with
  | nil =>
    rw [List.take_nil]
    rfl
  | cons c t ih =>
    rcases Int.lt_or_le offset begin with inside | outside
    · -- the first code point stands in front of the offset
      have one : (begin - offset).toNat = (begin - (offset + 1)).toNat + 1 := by omega
      rw [one, List.take_succ_cons, lineStartsFrom, lineStartsFrom]
      split
      · have first : offset + 1 ≤ begin := inside
        rw [List.takeWhile_cons_of_pos (by simpa using first), ih]
      · exact ih (offset + 1)
    · -- nothing does, and no line begins so early
      have none : (begin - offset).toNat = 0 := by omega
      have rest : (begin - (offset + 1)).toNat = 0 := by omega
      have later := ih (offset + 1)
      rw [rest, List.take_zero] at later
      rw [none, List.take_zero]
      show _ = []
      rw [lineStartsFrom]
      split
      · have first : ¬ offset + 1 ≤ begin := by omega
        rw [List.takeWhile_cons_of_neg (by simpa using first)]
      · exact later

end Text

namespace Buffer

/-! ## The place of an offset -/

theorem takeWhile_lineStarts (t : Text) {begin : Int} (h : 0 ≤ begin) :
    t.lineStarts.takeWhile (· ≤ begin) = Text.lineStarts (t.take begin.toNat) := by
  have first : decide (0 ≤ begin) = true := decide_eq_true h
  rw [Text.lineStarts, List.takeWhile_cons, first, if_pos rfl, Text.takeWhile_lineStartsFrom,
    Int.sub_zero]
  rfl

/-- The line of an offset is one more than the newlines in front of it. -/
theorem line_span (t : Text) {begin : Int} (h : 0 ≤ begin) (stop : Int) :
    ((ofText t).span begin stop).line = Text.newlines (t.take begin.toNat) + 1 := by
  show ((t.lineStarts.takeWhile (· ≤ begin)).length : Int) = _
  rw [takeWhile_lineStarts t h, Text.lineStarts, List.length_cons, Text.length_lineStartsFrom]
  rfl

/-- The column of an offset is its distance from the last line beginning in front of it. -/
theorem column_span (t : Text) {begin : Int} (h : 0 ≤ begin) (stop : Int) :
    ((ofText t).span begin stop).column
      = begin - ((t.take begin.toNat).length - Text.lastLine (t.take begin.toNat)) := by
  show begin - (t.lineStarts.takeWhile (· ≤ begin)).getLast?.getD 0 = _
  rw [takeWhile_lineStarts t h, Text.getLast?_lineStarts]
  rfl

/-- Inside the text, that is the length of the last line in front of it. -/
theorem column_span_of_le {t : Text} {begin : Int} (h : 0 ≤ begin) (le : begin ≤ t.length)
    (stop : Int) : ((ofText t).span begin stop).column = Text.lastLine (t.take begin.toNat) := by
  have length : (t.take begin.toNat).length = begin.toNat := by
    rw [List.length_take]
    omega
  rw [column_span t h, length]
  omega

end Buffer
/-! ## Both ways between offsets and places -/

namespace Text

/-- What the last line of a text begins behind: nothing, or a newline. -/
theorem newline_before_lastLine (t : Text) :
    t.length - lastLine t = 0 ∨ t[t.length - lastLine t - 1]? = some (CodePoint.ofChar '\n') := by
  induction t using List.reverseRecOn with
  | nil => exact Or.inl rfl
  | append_singleton t c ih =>
    rw [lastLine_concat, List.length_append, List.length_singleton]
    cases newline : c.is '\n' with
    | true =>
      right
      rw [if_pos rfl, ← CodePoint.is_iff.1 newline]
      exact List.getElem?_concat_length ..
    | false =>
      have same : t.length + 1 - (lastLine t + 1) = t.length - lastLine t := by omega
      rw [if_neg Bool.false_ne_true, same]
      rcases ih with first | behind
      · exact Or.inl first
      · -- what is found in front of the last code point is found with it as well
        have inside := (List.getElem?_eq_some_iff.1 behind).1
        exact Or.inr ((List.getElem?_append_left inside).trans behind)

/-- There is no newline in the last line of a text. -/
theorem newlines_lastLine (t : Text) : newlines (t.drop (t.length - lastLine t)) = 0 := by
  induction t using List.reverseRecOn with
  | nil => rfl
  | append_singleton t c ih =>
    rw [lastLine_concat, List.length_append, List.length_singleton]
    cases newline : c.is '\n' with
    | true =>
      rw [if_pos rfl, List.drop_of_length_le (by simp)]
      rfl
    | false =>
      have same : t.length + 1 - (lastLine t + 1) = t.length - lastLine t := by omega
      rw [if_neg Bool.false_ne_true, same, List.drop_append_of_le_length (Nat.sub_le ..),
        newlines_append, ih, newlines, List.countP_singleton, newline]
      rfl

theorem lastLine_le_length (t : Text) : lastLine t ≤ t.length := by
  have piece : lastLine t ≤ t.reverse.length := (List.takeWhile_sublist _).length_le
  rw [List.length_reverse] at piece
  exact piece

theorem lt_of_mem_lineStartsFrom {offset s : Int} {t : Text} (h : s ∈ lineStartsFrom offset t) :
    offset < s := by
  induction t generalizing offset with
  | nil => cases h
  | cons c t ih =>
    rw [lineStartsFrom] at h
    split at h
    · rcases List.mem_cons.1 h with rfl | h
      · omega
      · have := ih h
        omega
    · have := ih h
      omega

theorem pairwise_lineStartsFrom (offset : Int) (t : Text) : (lineStartsFrom offset t).Pairwise (· < ·) := by
  induction t generalizing offset with
  | nil => exact .nil
  | cons c t ih =>
    rw [lineStartsFrom]
    split
    · exact .cons (fun s hs => lt_of_mem_lineStartsFrom hs) (ih (offset + 1))
    · exact ih (offset + 1)

/-- Line beginnings ascend. -/
theorem pairwise_lineStarts (t : Text) : t.lineStarts.Pairwise (· < ·) :=
  .cons (fun _ hs => lt_of_mem_lineStartsFrom hs) (pairwise_lineStartsFrom 0 t)

end Text

/-- In an ascending list, nothing behind the first number above a bound is within the bound. -/
theorem lt_of_mem_drop_takeWhile {starts : List Int} (ascending : starts.Pairwise (· < ·)) {bound s : Int}
    (h : s ∈ starts.drop (starts.takeWhile (· ≤ bound)).length) : bound < s := by
  induction starts with
  | nil => cases h
  | cons first starts ih =>
    obtain ⟨above, rest⟩ := List.pairwise_cons.1 ascending
    rw [List.takeWhile_cons] at h
    split at h
    · exact ih rest h
    · rename_i outside
      have outside : bound < first := by simpa using outside
      rcases List.mem_cons.1 h with rfl | h
      · exact outside
      · have := above s h
        omega

namespace Buffer

section Places

variable (t : Text) (begin : Nat) (stop : Int)

/-- The line of an offset is one of the lines of the text, and it begins as far in front of the offset as the
    column says. -/
theorem getElem?_lineStarts_span :
    t.lineStarts[(((ofText t).span begin stop).line - 1).toNat]?
      = some (begin - ((ofText t).span begin stop).column) := by
  show t.lineStarts[(((t.lineStarts.takeWhile (· ≤ (begin : Int))).length : Int) - 1).toNat]?
    = some (begin - (begin - (t.lineStarts.takeWhile (· ≤ (begin : Int))).getLast?.getD 0))
  have last : (t.lineStarts.takeWhile (· ≤ (begin : Int))).getLast?
      = some ((t.take begin).length - Text.lastLine (t.take begin) : Int) := by
    rw [takeWhile_lineStarts t (Int.natCast_nonneg begin), Int.toNat_natCast, Text.getLast?_lineStarts]
  have whole : t.lineStarts.takeWhile (· ≤ (begin : Int)) <+: t.lineStarts := List.takeWhile_prefix _
  generalize t.lineStarts.takeWhile (· ≤ (begin : Int)) = before at last whole
  rw [last, Option.getD_some, Int.sub_sub_self]
  rw [List.getLast?_eq_getElem?] at last
  have index : ((before.length : Int) - 1).toNat = before.length - 1 := by omega
  obtain ⟨rest, same⟩ := whole
  have inside := (List.getElem?_eq_some_iff.1 last).1
  rw [index, ← same, List.getElem?_append_left inside, last]

/-- What stands between the beginning of its line and an offset: the line begins behind a newline or at the
    beginning of the text, and there is no other newline in between. -/
theorem exists_start_span : ∃ start : Nat, start ≤ begin
    ∧ ((ofText t).span begin stop).column = begin - start
    ∧ (start = 0 ∨ t[start - 1]? = some (CodePoint.ofChar '\n'))
    ∧ Text.newlines ((t.take begin).drop start) = 0 := by
  have column := column_span t (Int.natCast_nonneg begin) stop
  rw [Int.toNat_natCast] at column
  have length : (t.take begin).length ≤ begin := List.length_take_le ..
  have within := Text.lastLine_le_length (t.take begin)
  refine ⟨(t.take begin).length - Text.lastLine (t.take begin), by omega, by omega, ?_,
    Text.newlines_lastLine _⟩
  rcases Text.newline_before_lastLine (t.take begin) with first | behind
  · exact Or.inl first
  · rw [List.getElem?_take] at behind
    split at behind
    · exact Or.inr behind
    · cases behind

theorem line_span_mono {b₁ b₂ : Nat} (h : b₁ ≤ b₂) (e₁ e₂ : Int) :
    ((ofText t).span b₁ e₁).line ≤ ((ofText t).span b₂ e₂).line := by
  have more : Text.newlines (t.take b₁) ≤ Text.newlines (t.take b₂) :=
    (List.take_prefix_take_left h).sublist.countP_le
  rw [line_span t (Int.natCast_nonneg b₁), line_span t (Int.natCast_nonneg b₂)]
  simp only [Int.toNat_natCast]
  omega

/-- On one line, columns differ as offsets do. -/
theorem sub_column_span {b₁ b₂ : Nat} {e₁ e₂ : Int}
    (same : ((ofText t).span b₁ e₁).line = ((ofText t).span b₂ e₂).line) :
    (b₁ : Int) - ((ofText t).span b₁ e₁).column = b₂ - ((ofText t).span b₂ e₂).column := by
  have first := getElem?_lineStarts_span t b₁ e₁
  rw [same, getElem?_lineStarts_span t b₂ e₂] at first
  exact (Option.some.inj first).symm

/-- Offsets ascend exactly as lines and, on one line, columns do. -/
theorem lt_iff_place_lt {b₁ b₂ : Nat} (e₁ e₂ : Int) :
    b₁ < b₂ ↔ ((ofText t).span b₁ e₁).line < ((ofText t).span b₂ e₂).line
      ∨ ((ofText t).span b₁ e₁).line = ((ofText t).span b₂ e₂).line
        ∧ ((ofText t).span b₁ e₁).column < ((ofText t).span b₂ e₂).column := by
  constructor
  · intro less
    have lines := line_span_mono t (Nat.le_of_lt less) e₁ e₂
    rcases Int.lt_or_eq_of_le lines with before | same
    · exact Or.inl before
    · have := sub_column_span t same
      exact Or.inr ⟨same, by omega⟩
  · rintro (before | ⟨same, columns⟩)
    · by_contra more
      have := line_span_mono t (Nat.not_lt.1 more) e₂ e₁
      omega
    · have := sub_column_span t same
      omega

/-- **Places are exact.**  The lines of a text begin at ascending offsets.  The line of an offset, also of
    one past the end of the text, is one more than the newlines in front of it, and its column is the distance
    from the place behind the last of these newlines, or from the beginning of the text.  So the line is one of
    the lines of the text, the last that begins at or before the offset, and its beginning and the column add
    up to the offset.  Offsets are equal exactly if their places are, and ascend exactly as these do. -/
theorem place_of_offset :
    t.lineStarts.Pairwise (· < ·)
    ∧ (∀ (begin : Nat) (stop : Int), let span := (ofText t).span begin stop
      span.begin = begin ∧ span.stop = stop
      ∧ span.line = 1 + Text.newlines (t.take begin)
      ∧ (∃ start : Nat, start ≤ begin ∧ span.column = begin - start
        ∧ (start = 0 ∨ t[start - 1]? = some (CodePoint.ofChar '\n'))
        ∧ Text.newlines ((t.take begin).drop start) = 0)
      ∧ 0 ≤ span.column
      ∧ 1 ≤ span.line ∧ span.line ≤ t.lineStarts.length
      ∧ (∃ start, t.lineStarts[(span.line - 1).toNat]? = some start ∧ start + span.column = begin)
      ∧ (∀ start ∈ t.lineStarts.take span.line.toNat, start ≤ begin)
      ∧ ∀ start ∈ t.lineStarts.drop span.line.toNat, begin < start)
    ∧ ∀ (b₁ b₂ : Nat) (e₁ e₂ : Int),
      let first := (ofText t).span b₁ e₁
      let second := (ofText t).span b₂ e₂
      (b₁ = b₂ ↔ first.line = second.line ∧ first.column = second.column)
      ∧ (b₁ < b₂ ↔ first.line < second.line
        ∨ first.line = second.line ∧ first.column < second.column) := by
  refine ⟨t.pairwise_lineStarts, ?_, ?_⟩
  · intro begin stop span
    have line : span.line = Text.newlines (t.take begin) + 1 := line_span t (Int.natCast_nonneg begin) stop
    obtain ⟨start, le, column, behind, clear⟩ := exists_start_span t begin stop
    have ahead : 0 ≤ span.column := by
      show 0 ≤ ((ofText t).span begin stop).column
      omega
    have listed := getElem?_lineStarts_span t begin stop
    have inside : (span.line - 1).toNat < t.lineStarts.length := (List.getElem?_eq_some_iff.1 listed).1
    have counted : span.line.toNat = (t.lineStarts.takeWhile (· ≤ (begin : Int))).length := rfl
    refine ⟨rfl, rfl, by omega, ⟨start, le, column, behind, clear⟩, ahead, by omega, by omega,
      ⟨_, listed, Int.sub_add_cancel ..⟩, ?_, ?_⟩
    · intro s hs
      rw [counted, ← List.prefix_iff_eq_take.1 (List.takeWhile_prefix _)] at hs
      simpa using List.all_eq_true.1 List.all_takeWhile s hs
    · intro s hs
      rw [counted] at hs
      exact lt_of_mem_drop_takeWhile t.pairwise_lineStarts hs
  · intro b₁ b₂ e₁ e₂ first second
    refine ⟨⟨?_, ?_⟩, lt_iff_place_lt t e₁ e₂⟩
    · rintro rfl
      exact ⟨rfl, rfl⟩
    · rintro ⟨lines, columns⟩
      have starts : (b₁ : Int) - first.column = b₂ - second.column := sub_column_span t lines
      omega

/-- A newline ends its own line, and behind one that ends the text another line begins. -/
example : [0, 1, 2, 3].map (fun begin => (ofText "a\n").span begin begin)
    = [⟨0, 0, 1, 0⟩, ⟨1, 1, 1, 1⟩, ⟨2, 2, 2, 0⟩, ⟨3, 3, 2, 1⟩] := by decide

end Places

end Buffer

end NegationLint
