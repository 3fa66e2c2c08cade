/-
  What literals are made of.

  The two ways to write a literal agree on ASCII and part above it: one escapes every code point there, the
  other keeps the printable ones.  So the second is the first with text in place of some of the escapes.

  1. `plain_escape` — an escape is visible ASCII, whichever code point it is for;
  2. `escape_eq_ite` — ONE CODE POINT.  It is kept, which happens above ASCII only, or written as if
     nothing were kept;
  3. `filter_quoted` — A TEXT.  What is beyond visible ASCII in a literal is what has been kept of the text,
     in order, and nothing else;
  4. `flatMap_spelledOut_quoted` — THE CRUX.  A second pass that writes out everything above ASCII goes over
     text that is full of escapes already.  It leaves them alone, because they are ASCII by 1, so it ends
     where the first pass would have ended with nothing kept.

  None of this depends on which code points are kept.
-/
import Mathlib.Data.List.Basic
import NegationLint.Proofs.Literals

namespace NegationLint

/-- The space or a visible code point of ASCII. -/
def CodePoint.isPlain (c : CodePoint) : Bool := 0x20 ≤ c.val && c.val ≤ 0x7E

theorem CodePoint.isPlain_iff {c : CodePoint} : c.isPlain = true ↔ 0x20 ≤ c.val ∧ c.val ≤ 0x7E := by
  rw [isPlain, Bool.and_eq_true, decide_eq_true_eq, decide_eq_true_eq]

theorem CodePoint.isPrintable_of_isPlain {c : CodePoint} (h : c.isPlain = true) :
    c.isPrintable = true := by
  obtain ⟨low, high⟩ := isPlain_iff.1 h
  rw [isPrintable, if_pos (show c.val < 0x7F by omega), decide_eq_true_eq]
  exact low

theorem CodePoint.isPlain_of_high {c : CodePoint} (h : 0x7F < c.val) : c.isPlain = false := by
  rw [← Bool.not_eq_true, isPlain_iff]
  omega

namespace Ruby

/-! ## Escapes are plain -/

section Escapes

variable {c : CodePoint} {e : Text}

theorem isPlain_ofDigit {n : Nat} (h : n < 16) : (CodePoint.ofDigit n).isPlain = true := by
  revert n
  decide

theorem plain_hexFixed (width n : Nat) : ∀ d ∈ Text.hexFixed width n, d.isPlain = true := by
  induction width generalizing n with
  | zero => exact fun d hd => nomatch hd
  | succ width ih =>
    intro d hd
    rcases List.mem_append.1 hd with front | last
    · exact ih (n / 16) d front
    · obtain rfl := List.mem_singleton.1 last
      exact isPlain_ofDigit (Nat.mod_lt n (by decide))

theorem plain_hex (n : Nat) : ∀ d ∈ Text.hex n, d.isPlain = true := by
  intro d hd
  obtain ⟨m, hm, rfl⟩ := List.mem_map.1 hd
  exact isPlain_ofDigit (lt_of_mem_digitsWithin (by decide) hm)

theorem plain_unicodeEscape (c : CodePoint) : ∀ d ∈ unicodeEscape c, d.isPlain = true := by
  rw [unicodeEscape]
  split
  · exact List.forall_mem_append.2 ⟨by decide, plain_hexFixed 4 c.val⟩
  · exact List.forall_mem_append.2 ⟨by decide, List.forall_mem_append.2 ⟨plain_hex c.val, by decide⟩⟩

/-- The table of escapes: they are plain, and there is none for a code point above ASCII. -/
theorem plain_namedEscape :
    ∀ e, namedEscape? c = some e → (∀ d ∈ e, d.isPlain = true) ∧ c.val ≤ 0x7F := by
  have low {x : Char} (here : c.is x = true) (ascii : x.toNat ≤ 0x7F) : c.val ≤ 0x7F := by
    rw [CodePoint.is_iff.1 here]
    exact ascii
  refine forall_line (fun quote => ⟨by decide, low quote (by decide)⟩) ?_
  refine forall_line (fun backslash => ⟨by decide, low backslash (by decide)⟩) ?_
  refine forall_line (fun newline => ⟨by decide, low newline (by decide)⟩) ?_
  refine forall_line (fun ret => ⟨by decide, low ret (by decide)⟩) ?_
  refine forall_line (fun tab => ⟨by decide, low tab (by decide)⟩) ?_
  refine forall_line (fun feed => ⟨by decide, by omega⟩) ?_
  refine forall_line (fun vertical => ⟨by decide, by omega⟩) ?_
  refine forall_line (fun back => ⟨by decide, by omega⟩) ?_
  refine forall_line (fun bell => ⟨by decide, by omega⟩) ?_
  refine forall_line (fun esc => ⟨by decide, by omega⟩) ?_
  exact fun e h => nomatch h

end Escapes

/-! ## One code point -/

section One

variable {keep : CodePoint → Bool} {c : CodePoint}

theorem namedEscape?_of_high (h : 0x7F < c.val) : namedEscape? c = none := by
  refine Option.eq_none_iff_forall_ne_some.2 fun e named => ?_
  have := (plain_namedEscape e named).2
  omega

/-- Above ASCII a code point stands for itself or is written by its number. -/
theorem escape_of_high (h : 0x7F < c.val) (next : Option CodePoint) :
    escape keep c next = if keep c then [c] else unicodeEscape c := by
  have sign : ¬ c.is '#' = true := by
    intro sign
    rw [CodePoint.is_iff.1 sign] at h
    exact absurd h (by decide)
  rw [escape, namedEscape?_of_high h]
  dsimp only
  rw [if_neg sign, if_neg (by omega), if_neg (by omega)]

/-- Up to U+007F it makes no difference what is kept: nothing is. -/
theorem escape_of_low (h : c.val ≤ 0x7F) (next : Option CodePoint) :
    escape keep c next = escape (fun _ => false) c next := by
  have ascii : c.val < 0x80 := by omega
  rw [escape, escape]
  simp only [if_pos ascii]

/-- **One code point** is kept above ASCII or escaped as if nothing were. -/
theorem escape_eq_ite (keep : CodePoint → Bool) (c : CodePoint) (next : Option CodePoint) :
    escape keep c next
      = if 0x7F < c.val && keep c then [c] else escape (fun _ => false) c next := by
  by_cases high : 0x7F < c.val
  · rw [escape_of_high high, escape_of_high high, decide_eq_true high, Bool.true_and]
    rfl
  · rw [escape_of_low (by omega), decide_eq_false high, Bool.false_and]
    rfl

/-- With nothing kept, a code point becomes visible ASCII. -/
theorem plain_escape (c : CodePoint) (next : Option CodePoint) :
    ∀ d ∈ escape (fun _ => false) c next, d.isPlain = true := by
  rw [escape]
  split
  · rename_i e named
    exact (plain_namedEscape e named).1
  · split_ifs with sign opens visible ascii never
    · decide
    · decide
    · intro d hd
      obtain rfl := List.mem_singleton.1 hd
      exact CodePoint.isPlain_iff.2 ⟨visible.1, by omega⟩
    · exact List.forall_mem_append.2 ⟨by decide, plain_hexFixed 2 c.val⟩
    · cases never
    · exact plain_unicodeEscape c

/-- What one code point brings beyond visible ASCII. -/
theorem filter_escape (keep : CodePoint → Bool) (c : CodePoint) (next : Option CodePoint) :
    (escape keep c next).filter (!·.isPlain) = if 0x7F < c.val && keep c then [c] else [] := by
  rw [escape_eq_ite]
  split
  · rename_i kept
    have high : 0x7F < c.val := of_decide_eq_true (Bool.and_eq_true_iff.1 kept).1
    have beyond : (!c.isPlain) = true := by rw [CodePoint.isPlain_of_high high]; rfl
    exact List.filter_cons_of_pos beyond
  · refine List.filter_eq_nil_iff.2 fun d hd => ?_
    rw [plain_escape c next d hd]
    exact Bool.false_ne_true

/-- A code point above ASCII by its number. -/
def spelledOut (c : CodePoint) : Text := if c.val ≤ 0x7F then [c] else unicodeEscape c

/-- Visible ASCII is left alone. -/
theorem flatMap_spelledOut_of_plain {t : Text} (h : ∀ c ∈ t, c.isPlain = true) :
    t.flatMap spelledOut = t := by
  induction t with
  | nil => rfl
  | cons c t ih =>
    obtain ⟨here, rest⟩ := List.forall_mem_cons.1 h
    have ascii : c.val ≤ 0x7F := by
      have := CodePoint.isPlain_iff.1 here
      omega
    rw [List.flatMap_cons, ih rest, spelledOut, if_pos ascii]
    rfl

/-- One code point, escaped with some kept and then spelled out. -/
theorem flatMap_spelledOut_escape (keep : CodePoint → Bool) (c : CodePoint) (next : Option CodePoint) :
    (escape keep c next).flatMap spelledOut = escape (fun _ => false) c next := by
  rw [escape_eq_ite keep]
  split
  · rename_i kept
    have high : 0x7F < c.val := of_decide_eq_true (Bool.and_eq_true_iff.1 kept).1
    rw [List.flatMap_singleton, spelledOut, if_neg (by omega), escape_of_high high]
    rfl
  · exact flatMap_spelledOut_of_plain (plain_escape c next)

end One

/-! ## Literals -/

section Literals

variable (keep : CodePoint → Bool) (t : Text)

theorem filter_escapeAll :
    (escapeAll keep t).filter (!·.isPlain) = t.filter fun c => 0x7F < c.val && keep c := by
  induction t with
  | nil => rfl
  | cons c t ih =>
    rw [escapeAll_cons, List.filter_append, filter_escape, ih, List.filter_cons]
    split <;> rfl

/-- **Beyond visible ASCII** a literal has what is kept of the text, in order. -/
theorem filter_quoted :
    (quoted keep t).filter (!·.isPlain) = t.filter fun c => 0x7F < c.val && keep c := by
  have quote : [CodePoint.ofChar '"'].filter (!·.isPlain) = [] := rfl
  rw [quoted, ← List.singleton_append, List.filter_append, List.filter_append, quote, filter_escapeAll,
    List.append_nil, List.nil_append]

theorem flatMap_spelledOut_escapeAll :
    (escapeAll keep t).flatMap spelledOut = escapeAll (fun _ => false) t := by
  induction t with
  | nil => rfl
  | cons c t ih =>
    rw [escapeAll_cons, escapeAll_cons, List.flatMap_append, flatMap_spelledOut_escape, ih]

/-- **Spelled out**, a literal is the one in pure ASCII. -/
theorem flatMap_spelledOut_quoted : (quoted keep t).flatMap spelledOut = dump t := by
  have quote : spelledOut (CodePoint.ofChar '"') = [CodePoint.ofChar '"'] := rfl
  rw [quoted, List.flatMap_cons, List.flatMap_append, flatMap_spelledOut_escapeAll,
    List.flatMap_singleton, quote]
  rfl

/-- In a literal there is visible ASCII, and what is kept. -/
theorem plain_or_kept {c : CodePoint} (h : c ∈ quoted keep t) :
    c.isPlain = true ∨ c ∈ t ∧ 0x7F < c.val ∧ keep c = true := by
  by_cases plain : c.isPlain = true
  · exact Or.inl plain
  · have kept : c ∈ (quoted keep t).filter (!·.isPlain) :=
      List.mem_filter.2 ⟨h, Bool.not_eq_true' _ ▸ Bool.not_eq_true _ ▸ plain⟩
    rw [filter_quoted, List.mem_filter, Bool.and_eq_true, decide_eq_true_eq] at kept
    exact Or.inr kept

end Literals

/-! ## Both ways to write a literal -/

theorem isPlain_of_mem_dump {t : Text} {c : CodePoint} (h : c ∈ dump t) : c.isPlain = true := by
  rcases plain_or_kept _ t h with plain | ⟨-, -, kept⟩
  · exact plain
  · cases kept

theorem isPrintable_of_mem_inspect {t : Text} {c : CodePoint} (h : c ∈ inspect t) :
    c.isPrintable = true := by
  rcases plain_or_kept _ t h with plain | ⟨-, -, kept⟩
  · exact CodePoint.isPrintable_of_isPlain plain
  · exact kept

/-- **How the two ways differ.**  The literal in pure ASCII has nothing but visible ASCII in it, and the
    literal with printable text kept is printable throughout.  The first is the second with each code point
    above U+007F replaced by its number: a backslash, a `u` and four hexadecimal digits up to U+FFFF,
    and braces around the digits beyond.  So they are the same exactly if the text has no printable code
    point above U+007F. -/
theorem dump_eq_spelledOut_inspect (value : Text) :
    (∀ c ∈ dump value, 0x20 ≤ c.val ∧ c.val ≤ 0x7E)
    ∧ (∀ c ∈ inspect value, c.isPrintable = true)
    ∧ dump value = (inspect value).flatMap (fun c =>
        if c.val ≤ 0x7F then [c]
        else if c.val ≤ 0xFFFF then ("\\u" : Text) ++ Text.hexFixed 4 c.val
        else ("\\u\x7b" : Text) ++ (Text.hex c.val ++ ("\x7d" : Text)))
    ∧ (dump value = inspect value ↔ ∀ c ∈ value, 0x7F < c.val → c.isPrintable = false) := by
  refine ⟨fun c hc => CodePoint.isPlain_iff.1 (isPlain_of_mem_dump hc),
    fun c hc => isPrintable_of_mem_inspect hc, (flatMap_spelledOut_quoted _ value).symm, ?_⟩
  constructor
  · intro same c hc high
    rw [← Bool.not_eq_true]
    intro printable
    -- it is kept, and the literal in pure ASCII has no place for it
    have kept : c ∈ (inspect value).filter (!·.isPlain) := by
      rw [inspect, filter_quoted, List.mem_filter, Bool.and_eq_true]
      exact ⟨hc, decide_eq_true high, printable⟩
    have plain : c.isPlain = true := isPlain_of_mem_dump (same ▸ (List.mem_filter.1 kept).1)
    rw [CodePoint.isPlain_of_high high] at plain
    cases plain
  · intro bare
    have plain : ∀ c ∈ inspect value, c.isPlain = true := by
      intro c hc
      rcases plain_or_kept _ value hc with plain | ⟨hc, high, printable⟩
      · exact plain
      · rw [bare c hc high] at printable
        cases printable
    rw [← flatMap_spelledOut_quoted CodePoint.isPrintable value]
    exact flatMap_spelledOut_of_plain plain

/-- A letter that is printable, and a space without width that is not. -/
example : inspect "é\u200b" = ("\"é\\u200B\"" : Text)
    ∧ dump "é\u200b" = ("\"\\u00E9\\u200B\"" : Text) := by
  decide +kernel

end Ruby

end NegationLint
