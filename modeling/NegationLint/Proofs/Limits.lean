/-
  Limits read from an environment.

  A limit is a text that somebody has typed.  The grammar of `Spelling` says what it has to look like.  What is
  spelled is read, and what is read is spelled, so every near miss is refused:

  1. `digitRun?_eq_some_iff` — DIGITS.  The reader of digits gives the digits of the runs, and nothing for a
     text that is no run.  By induction on the run in one direction and along the reader in the other, with
     one case for an underscore and one for a digit that stands next to the one before it;
  2. `asciiInteger?_eq_some_iff` — SIGN AND BLANKS.  No numeral has a blank in it, so what is left between the
     blanks is the numeral, and its first code point says which sign it has;
  3. `integer?_eq_some_iff` — the blanks of plain text are spaces;
  4. `limits_ofEnvironment` — the two ends of a limit: one that is too small counts as not understood, one
     above the ceiling stops there.
-/
import NegationLint.Proofs.Alphabet
import NegationLint.Settings.Environment
import NegationLint.Text.Spelling

namespace NegationLint

open Text (digitRun? asciiInteger? integer? digitLimit decimalValue)

/-! ## Digits read back -/

namespace DigitRun

/-- The digits of the run as text. -/
def figures (r : DigitRun) : Text := r.digits.map CodePoint.ofDigit

theorem length_figures (r : DigitRun) : r.figures.length = r.digits.length := by
  rw [figures, List.length_map]

/-- The value by places is what the digits come to when they are read from the left. -/
theorem decimalValue_figures (r : DigitRun) : decimalValue r.figures = r.value := by
  have fromLeft : (fun n d : Nat => d + 10 * n) = fun n d => 10 * n + d := by
    funext n d
    exact Nat.add_comm d (10 * n)
  rw [decimalValue, figures, Text.foldl_map_ofDigit (fun d hd => lt_of_mem_digits hd), value,
    Nat.ofDigits_eq_foldr, List.foldr_reverse]
  exact congrArg (fun f => r.digits.foldl f 0) fromLeft.symm

theorem digitRun?_text (r : DigitRun) : digitRun? r.text = some r.figures := by
  induction r with
  | last d => exact Text.digitRun?_singleton (CodePoint.isDecimal_ofDigit d.isLt)
  | next d rest ih =>
    obtain ⟨e, more, first⟩ := rest.exists_cons_text
    have other : ∀ e : Fin 10, (CodePoint.ofDigit e).is '_' = false := by decide
    rw [text, first, Text.digitRun?_cons_cons (CodePoint.isDecimal_ofDigit d.isLt) (other e), ← first, ih]
    rfl
  | underscore d rest ih =>
    rw [text, Text.digitRun?_underscore (CodePoint.isDecimal_ofDigit d.isLt), ih]
    rfl

theorem exists_of_digitRun? {t ds : Text} (h : digitRun? t = some ds) :
    ∃ r : DigitRun, r.text = t ∧ r.figures = ds := by
  have figure {c : CodePoint} (digit : ¬ (!c.isDecimal) = true) : ∃ d : Fin 10, CodePoint.ofDigit d = c := by
    rw [Bool.not_eq_true', Bool.not_eq_false] at digit
    exact CodePoint.isDecimal_iff.1 digit
  fun_induction digitRun? t generalizing ds with
  | case1 => cases h
  | case2 c rest other => cases h
  | case3 c digit =>
    obtain ⟨d, rfl⟩ := figure digit
    cases h
    exact ⟨.last d, rfl, rfl⟩
  | case4 c digit e more mark ih =>
    obtain ⟨d, rfl⟩ := figure digit
    obtain rfl := CodePoint.is_iff.1 mark
    obtain ⟨rest, read, rfl⟩ := Option.map_eq_some_iff.1 h
    obtain ⟨r, rfl, rfl⟩ := ih read
    exact ⟨.underscore d r, rfl, rfl⟩
  | case5 c digit e more other ih =>
    obtain ⟨d, rfl⟩ := figure digit
    obtain ⟨rest, read, rfl⟩ := Option.map_eq_some_iff.1 h
    obtain ⟨r, run, rfl⟩ := ih read
    exact ⟨.next d r, congrArg _ run, rfl⟩

/-- **Digits are read as they are spelled**, and what is not spelled in this way is not read. -/
theorem digitRun?_eq_some_iff {t ds : Text} :
    digitRun? t = some ds ↔ ∃ r : DigitRun, r.text = t ∧ r.figures = ds := by
  constructor
  · exact exists_of_digitRun?
  · rintro ⟨r, rfl, rfl⟩
    exact r.digitRun?_text

end DigitRun

/-! ## Numerals between blanks -/

namespace Numeral

/-- A numeral is plain text without blanks. -/
theorem plain_text {m : Numeral} {c : CodePoint} (h : c ∈ m.text) :
    c.isPlain = true ∧ c.isAsciiBlank = false := by
  have ofDigit : ∀ d : Fin 10,
      (CodePoint.ofDigit d).isPlain = true ∧ (CodePoint.ofDigit d).isAsciiBlank = false := by decide
  have ofSign (s : Sign) : ∀ c ∈ s.text, c.isPlain = true ∧ c.isAsciiBlank = false := by
    cases s <;> decide
  rcases List.mem_append.1 h with sign | run
  · exact ofSign m.sign c sign
  · rcases DigitRun.mem_text run with ⟨d, rfl⟩ | rfl
    · exact ofDigit d
    · decide

theorem signed_text (m : Numeral) : m.text.signed = (m.sign.factor, m.run.text) := by
  obtain ⟨d, rest, first⟩ := m.run.exists_cons_text
  have digit : ∀ d : Fin 10,
      (CodePoint.ofDigit d).is '-' = false ∧ (CodePoint.ofDigit d).is '+' = false := by decide
  rw [text, first]
  cases m.sign with
  | unsigned =>
    obtain ⟨minus, plus⟩ := digit d
    simp only [Sign.text, Sign.factor, List.nil_append, Text.signed, minus, plus]
    rfl
  | plus => rfl
  | minus => rfl

/-- Any text is a sign and the rest of it. -/
theorem exists_sign (t : Text) : ∃ sign : Sign, sign.text ++ t.signed.2 = t ∧ sign.factor = t.signed.1 := by
  cases t with
  | nil => exact ⟨.unsigned, rfl, rfl⟩
  | cons c rest =>
    rw [Text.signed]
    split
    · rename_i minus
      obtain rfl := CodePoint.is_iff.1 minus
      exact ⟨.minus, rfl, rfl⟩
    · split
      · rename_i plus
        obtain rfl := CodePoint.is_iff.1 plus
        exact ⟨.plus, rfl, rfl⟩
      · exact ⟨.unsigned, rfl, rfl⟩

end Numeral

/-- **The integers of ASCII text** are the numerals between blanks that do not have too many digits. -/
theorem asciiInteger?_eq_some_iff {t : Text} {n : Int} :
    asciiInteger? t = some n ↔ ∃ (m : Numeral) (before after : Text),
      t = before ++ (m.text ++ after) ∧ (∀ c ∈ before, c.isAsciiBlank = true)
      ∧ (∀ c ∈ after, c.isAsciiBlank = true) ∧ m.run.digits.length ≤ digitLimit ∧ m.value = n := by
  -- the value that the reader takes from the run of a numeral, and the bound on it
  have behind (sign : Sign) (r : DigitRun) :
      (if digitLimit < r.figures.length then none else some (sign.factor * decimalValue r.figures)) = some n
        ↔ r.digits.length ≤ digitLimit ∧ Numeral.value ⟨sign, r⟩ = n := by
    rw [r.length_figures, r.decimalValue_figures, Option.ite_none_left_eq_some, Nat.not_lt, Option.some.injEq]
    rfl
  rw [Text.asciiInteger?_eq]
  constructor
  · intro h
    obtain ⟨ds, run, read⟩ := Option.bind_eq_some_iff.1 h
    obtain ⟨r, spelled, rfl⟩ := DigitRun.digitRun?_eq_some_iff.1 run
    obtain ⟨before, after, cut, front, back⟩ := Text.exists_trim CodePoint.isAsciiBlank t
    obtain ⟨sign, whole, factor⟩ := Numeral.exists_sign (t.trim CodePoint.isAsciiBlank)
    rw [← factor] at read
    refine ⟨⟨sign, r⟩, before, after, ?_, front, back, (behind sign r).1 read⟩
    rw [Numeral.text, spelled, whole]
    exact cut
  · rintro ⟨m, before, after, rfl, front, back, short, value⟩
    have clear {o : Option CodePoint} (inside : ∀ c ∈ o, c ∈ m.text) :
        o.any CodePoint.isAsciiBlank = false := by
      cases o with
      | none => rfl
      | some c => exact (Numeral.plain_text (inside c rfl)).2
    have left : (before ++ (m.text ++ after)).trim CodePoint.isAsciiBlank = m.text :=
      Text.trim_between m.text_ne_nil front back (clear fun c hc => List.mem_of_head? hc)
        (clear fun c hc => List.mem_of_getLast? hc)
    rw [left, m.signed_text, m.run.digitRun?_text]
    exact (behind m.sign m.run).2 ⟨short, value⟩

/-! ## Integers in plain text -/

namespace Spelling

theorem plain_spaces {n : Nat} {c : CodePoint} (h : c ∈ spaces n) :
    c.isPlain = true ∧ c.isAsciiBlank = true := by
  rw [List.eq_of_mem_replicate h]
  decide

theorem plain_text {s : Spelling} {c : CodePoint} (h : c ∈ s.text) : c.isPlain = true := by
  rcases List.mem_append.1 h with before | h
  · exact (plain_spaces before).1
  · rcases List.mem_append.1 h with numeral | after
    · exact (Numeral.plain_text numeral).1
    · exact (plain_spaces after).1

/-- In plain text the only blank is the space. -/
theorem eq_spaces {t : Text} (plain : ∀ c ∈ t, c.isPlain = true) (blank : ∀ c ∈ t, c.isAsciiBlank = true) :
    t = spaces t.length := by
  refine List.eq_replicate_iff.2 ⟨rfl, fun c hc => CodePoint.ext_val ?_⟩
  have printed := CodePoint.isPlain_iff.1 (plain c hc)
  have blank := blank c hc
  simp only [CodePoint.isAsciiBlank, Bool.or_eq_true, Bool.and_eq_true, decide_eq_true_eq, beq_iff_eq] at blank
  show c.val = 0x20
  omega

end Spelling

section Plain

variable {t : Text} (plain : ∀ c ∈ t, c.isPlain = true)

include plain

/-- **The integers of plain text** are the spelled ones that do not have too many digits. -/
theorem integer?_eq_some_iff {n : Int} :
    integer? t = some n ↔ ∃ s : Spelling, s.text = t ∧ s.digits.length ≤ digitLimit ∧ s.value = n := by
  have ascii : t.all (·.val < 0x80) = true := by
    refine List.all_eq_true.2 fun c hc => decide_eq_true ?_
    have := CodePoint.isPlain_iff.1 (plain c hc)
    omega
  rw [integer?, if_pos ascii, asciiInteger?_eq_some_iff]
  constructor
  · rintro ⟨m, before, after, rfl, front, back, short, value⟩
    have left := Spelling.eq_spaces (fun c hc => plain c (List.mem_append_left _ hc)) front
    have right := Spelling.eq_spaces
      (fun c hc => plain c (List.mem_append_right _ (List.mem_append_right _ hc))) back
    refine ⟨⟨before.length, m, after.length⟩, ?_, short, value⟩
    rw [Spelling.text, ← left, ← right]
  · rintro ⟨s, rfl, short, value⟩
    exact ⟨s.numeral, Spelling.spaces s.before, Spelling.spaces s.after, rfl,
      fun c hc => (Spelling.plain_spaces hc).2, fun c hc => (Spelling.plain_spaces hc).2, short, value⟩

/-- Nothing is read from plain text that is no spelling, or has too many digits. -/
theorem integer?_eq_none_iff :
    integer? t = none ↔ ¬ ∃ s : Spelling, s.text = t ∧ s.digits.length ≤ digitLimit := by
  rw [Option.eq_none_iff_forall_ne_some]
  constructor
  · rintro unread ⟨s, spelled, short⟩
    exact unread s.value ((integer?_eq_some_iff plain).2 ⟨s, spelled, short, rfl⟩)
  · intro unspelled n read
    obtain ⟨s, spelled, short, -⟩ := (integer?_eq_some_iff plain).1 read
    exact unspelled ⟨s, spelled, short⟩

end Plain

/-- Ten, spelled in two ways, and what nobody may read as ten: no digit, one underscore too many or in the
    wrong place, a space inside, a second sign, another character. -/
example : (["+0_10", " 10  "] : List Text).map integer? = [some 10, some 10]
    ∧ ∀ t ∈ (["", "  ", "+", "1__0", "_10", "10_", "+_10", "1 0", "+ 10", "+-10", "10.", "0x10"] : List Text),
      integer? t = none := by decide

namespace Settings

/-! ## Limits -/

/-- **Limits are sane, and read exactly.**  Whatever the environment gives, a source may have at least one byte,
    the depth limit is between one and 256, and the severity is one of the six.  An integer that is spelled
    with at most 4300 digits is the limit, if it is not below one, and a depth above 256 becomes 256; below
    one the standard limit holds.  It also holds if plain text does not spell an integer in this way. -/
theorem limits_ofEnvironment (env : Environment) :
    (1 ≤ (ofEnvironment env).maxSourceBytes
      ∧ 1 ≤ (ofEnvironment env).maxDepth ∧ (ofEnvironment env).maxDepth ≤ 256
      ∧ (ofEnvironment env).severity ∈ Contract.severities)
    ∧ (∀ s : Spelling, s.digits.length ≤ 4300 →
      (env .maxSourceBytes = some s.text →
        (ofEnvironment env).maxSourceBytes = if s.value < 1 then standard.maxSourceBytes else s.value)
      ∧ (env .maxDepth = some s.text →
        (ofEnvironment env).maxDepth = if s.value < 1 then standard.maxDepth else min s.value 256))
    ∧ ∀ t : Text, (∀ c ∈ t, c.isPlain = true) →
      (¬ ∃ s : Spelling, s.text = t ∧ s.digits.length ≤ 4300) →
      (env .maxSourceBytes = some t → (ofEnvironment env).maxSourceBytes = standard.maxSourceBytes)
      ∧ (env .maxDepth = some t → (ofEnvironment env).maxDepth = standard.maxDepth) := by
  have size : (ofEnvironment env).maxSourceBytes
      = readLimit standard.maxSourceBytes none (env .maxSourceBytes) := rfl
  have depth : (ofEnvironment env).maxDepth
      = readLimit standard.maxDepth (some depthCeiling) (env .maxDepth) := rfl
  rw [size, depth]
  refine ⟨⟨?_, ?_, ?_, severity_ofEnvironment_mem env⟩, ?_, ?_⟩
  · exact one_le_readLimit (by decide) (fun _ h => absurd h (Option.not_mem_none _)) _
  · refine one_le_readLimit (by decide) (fun most h => ?_) _
    obtain rfl := Option.some.inj h
    decide
  · exact readLimit_le (by decide) _
  · intro s short
    have read : integer? s.text = some s.value :=
      (integer?_eq_some_iff fun c hc => Spelling.plain_text hc).2 ⟨s, rfl, short, rfl⟩
    constructor
    · intro given
      rw [given, readLimit_of_some read]
      rfl
    · intro given
      rw [given, readLimit_of_some read]
      rfl
  · intro t plain unspelled
    have unread : integer? t = none := (integer?_eq_none_iff plain).2 unspelled
    constructor
    · intro given
      rw [given, readLimit_of_none unread]
    · intro given
      rw [given, readLimit_of_none unread]

/-- A thousand, with all that a spelling can have. -/
def thousand : Spelling := ⟨1, ⟨.plus, .underscore 0 (.underscore 1 (.next 0 (.next 0 (.last 0))))⟩, 2⟩

/-- A size that is not spelled, and a depth that is, above the ceiling. -/
def carelessEnvironment : Environment
  | .maxSourceBytes => some "1__0"
  | .maxDepth => some " +0_1_000  "
  | _ => none

theorem limits_ofEnvironment_careless :
    (thousand.digits.length ≤ 4300 ∧ carelessEnvironment .maxDepth = some thousand.text
      ∧ (ofEnvironment carelessEnvironment).maxDepth = 256)
    ∧ ((∀ c ∈ ("1__0" : Text), c.isPlain = true)
      ∧ (¬ ∃ s : Spelling, s.text = ("1__0" : Text) ∧ s.digits.length ≤ 4300)
      ∧ carelessEnvironment .maxSourceBytes = some ("1__0" : Text)
      ∧ (ofEnvironment carelessEnvironment).maxSourceBytes = 262144) := by
  obtain ⟨-, spelled, unspelled⟩ := limits_ofEnvironment carelessEnvironment
  have short : thousand.digits.length ≤ 4300 := by decide
  have given : carelessEnvironment .maxDepth = some thousand.text := by decide
  have depth : (if thousand.value < 1 then standard.maxDepth else min thousand.value 256) = 256 := by decide
  have plain : ∀ c ∈ ("1__0" : Text), c.isPlain = true := by decide
  have miss : ¬ ∃ s : Spelling, s.text = ("1__0" : Text) ∧ s.digits.length ≤ 4300 :=
    (integer?_eq_none_iff plain).1 (by decide)
  exact ⟨⟨short, given, ((spelled thousand short).2 given).trans depth⟩,
    plain, miss, rfl, (unspelled _ plain miss).1 rfl⟩

end Settings

end NegationLint
