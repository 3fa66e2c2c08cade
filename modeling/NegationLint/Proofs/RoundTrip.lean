/-
  JSON text read back.

  The printer writes any text into a string, quotes and control characters included, and the reader gets the
  value back:

  1. `shown_of_mem_render` — a rendered value is one line, without a control character, and what is above
     ASCII in it comes from a string or a key of the value;
  2. `stringBody_escape` — ONE CODE POINT of a string, written in one of three ways (`Written`);
  3. `scalar_ofInt` — an integer, read up to something that ends it;
  4. `Readable` — a value without decimals, without integers that are too long and without a key given twice;
  5. `value_render` — THE CRUX: such a value is read from the front of a text, and what follows it is left.
     By induction on the value, with one call of the reader at a time (`items_more`, `members_more`).  Two
     calls for each code point are enough: for a value, and for the items or fields that it begins;
  6. `parseWithin_render` — so the whole text is read back as the value.
-/
import Mathlib.Tactic.SplitIfs
import NegationLint.Json.Printer
import NegationLint.Json.Reader

namespace NegationLint

namespace Json

/-! ## What stands in a rendered value -/

mutual

/-- The strings of a value, and the keys. -/
def texts : Json → List Text
  | .str t => [t]
  | .arr items => itemTexts items
  | .obj fields => fieldTexts fields
  | _ => []

/-- The strings and the keys of the items of an array. -/
def itemTexts : List Json → List Text
  | [] => []
  | v :: vs => v.texts ++ itemTexts vs

/-- The keys of fields, and the strings and the keys of their values. -/
def fieldTexts : List (Text × Json) → List Text
  | [] => []
  | (key, v) :: fields => key :: (v.texts ++ fieldTexts fields)

end

/-- How a code point is written in a string: by a letter, by its number, or as it is. -/
inductive Written (c : CodePoint) : Text → Prop
  | letter (l : CodePoint) (ascii : 0x20 ≤ l.val ∧ l.val < 0x80) (other : l.is 'u' = false)
    (read : Reader.escaped? l = some c) : Written c [CodePoint.ofChar '\\', l]
  | number (control : c.val < 0x20) : Written c (("\\u" : Text) ++ Text.hexFixedLower 4 c.val)
  | itself (quote : c.is '"' = false) (backslash : c.is '\\' = false) (visible : 0x20 ≤ c.val) : Written c [c]

theorem written_escape (c : CodePoint) : Written c (escape c) := by
  rw [escape]
  split_ifs with quote backslash newline ret tab feed back control
  · obtain rfl := CodePoint.is_iff.1 quote
    exact .letter (CodePoint.ofChar '"') (by decide) rfl rfl
  · obtain rfl := CodePoint.is_iff.1 backslash
    exact .letter (CodePoint.ofChar '\\') (by decide) rfl rfl
  · obtain rfl := CodePoint.is_iff.1 newline
    exact .letter (CodePoint.ofChar 'n') (by decide) rfl rfl
  · obtain rfl := CodePoint.is_iff.1 ret
    exact .letter (CodePoint.ofChar 'r') (by decide) rfl rfl
  · obtain rfl := CodePoint.is_iff.1 tab
    exact .letter (CodePoint.ofChar 't') (by decide) rfl rfl
  · obtain rfl : c = ⟨0x0C, by decide⟩ := CodePoint.ext_val feed
    exact .letter (CodePoint.ofChar 'f') (by decide) rfl rfl
  · obtain rfl : c = ⟨0x08, by decide⟩ := CodePoint.ext_val back
    exact .letter (CodePoint.ofChar 'b') (by decide) rfl rfl
  · exact .number control
  · exact .itself (Bool.not_eq_true _ ▸ quote) (Bool.not_eq_true _ ▸ backslash) (by omega)

/-- ASCII, or from one of these texts. -/
def Drawn (ts : List Text) (c : CodePoint) : Prop := c.val < 0x80 ∨ ∃ t ∈ ts, c ∈ t

/-- Visible, and ASCII or from one of these texts. -/
def Shown (ts : List Text) (c : CodePoint) : Prop := 0x20 ≤ c.val ∧ Drawn ts c

theorem shown_mono {ts ts' : List Text} {e : Text} (h : ∀ c ∈ e, Shown ts c) (sub : ts ⊆ ts') :
    ∀ c ∈ e, Shown ts' c := by
  intro c hc
  obtain ⟨visible, ascii | ⟨t, ht, member⟩⟩ := h c hc
  · exact ⟨visible, Or.inl ascii⟩
  · exact ⟨visible, Or.inr ⟨t, sub ht, member⟩⟩

theorem shown_of_ascii {ts : List Text} {e : Text} (h : ∀ c ∈ e, 0x20 ≤ c.val ∧ c.val < 0x80) :
    ∀ c ∈ e, Shown ts c :=
  fun c hc => ⟨(h c hc).1, Or.inl (h c hc).2⟩

theorem ascii_hexFixedLower (width n : Nat) :
    ∀ c ∈ Text.hexFixedLower width n, 0x20 ≤ c.val ∧ c.val < 0x80 := by
  have digit : ∀ d < 16,
      0x20 ≤ (CodePoint.ofDigitLower d).val ∧ (CodePoint.ofDigitLower d).val < 0x80 := by
    decide
  induction width generalizing n with
  | zero => exact fun c hc => nomatch hc
  | succ width ih =>
    refine List.forall_mem_append.2 ⟨ih _, ?_⟩
    exact List.forall_mem_singleton.2 (digit _ (Nat.mod_lt n (by decide)))

theorem shown_of_mem_escape {t : Text} {c d : CodePoint} (hc : c ∈ t) (h : d ∈ escape c) :
    Shown [t] d := by
  have written := written_escape c
  generalize escape c = e at h written
  cases written with
  | letter l ascii =>
    exact shown_of_ascii (List.forall_mem_cons.2 ⟨by decide, List.forall_mem_singleton.2 ascii⟩) d h
  | number =>
    exact shown_of_ascii (List.forall_mem_append.2 ⟨by decide, ascii_hexFixedLower 4 c.val⟩) d h
  | itself quote backslash visible =>
    obtain rfl := List.mem_singleton.1 h
    exact ⟨visible, Or.inr ⟨t, List.mem_singleton.2 rfl, hc⟩⟩

theorem shown_of_mem_quote {t : Text} : ∀ c ∈ quote t, Shown [t] c := by
  have mark : Shown [t] (CodePoint.ofChar '"') := ⟨by decide, Or.inl (by decide)⟩
  rw [quote]
  refine List.forall_mem_cons.2 ⟨mark, List.forall_mem_append.2 ⟨?_, List.forall_mem_singleton.2 mark⟩⟩
  intro d hd
  obtain ⟨c, hc, h⟩ := List.mem_flatMap.1 hd
  exact shown_of_mem_escape hc h

theorem ascii_ofInt (n : Int) : ∀ c ∈ Text.ofInt n, 0x20 ≤ c.val ∧ c.val < 0x80 := by
  have digits (k : Nat) : ∀ c ∈ Text.ofNat k, 0x20 ≤ c.val ∧ c.val < 0x80 := by
    intro c hc
    have within := Text.isDecimal_of_mem_ofNat hc
    rw [CodePoint.isDecimal, CodePoint.within, Bool.and_eq_true, decide_eq_true_eq, decide_eq_true_eq] at within
    have low : '0'.toNat = 0x30 := rfl
    have high : '9'.toNat = 0x39 := rfl
    omega
  cases n with
  | ofNat k => exact digits k
  | negSucc k => exact List.forall_mem_cons.2 ⟨by decide, digits (k + 1)⟩

theorem ascii_renderNumber (n : Number) : ∀ c ∈ renderNumber n, 0x20 ≤ c.val ∧ c.val < 0x80 := by
  cases n with
  | int n => exact ascii_ofInt n
  | decimal mantissa exponent =>
    exact List.forall_mem_append.2
      ⟨List.forall_mem_append.2 ⟨ascii_ofInt mantissa, by decide⟩, ascii_ofInt exponent⟩
  | notANumber => exact by decide
  | infinite negative => cases negative <;> decide

theorem key_subset (key : Text) (v : Json) (fields : List (Text × Json)) :
    [key] ⊆ fieldTexts ((key, v) :: fields) :=
  List.cons_subset.2 ⟨List.mem_cons_self, List.nil_subset _⟩

theorem value_subset (key : Text) (v : Json) (fields : List (Text × Json)) :
    v.texts ⊆ fieldTexts ((key, v) :: fields) :=
  fun _ ht => List.mem_cons_of_mem _ (List.mem_append_left _ ht)

theorem fields_subset (key : Text) (v : Json) (fields : List (Text × Json)) :
    fieldTexts fields ⊆ fieldTexts ((key, v) :: fields) :=
  fun _ ht => List.mem_cons_of_mem _ (List.mem_append_right _ ht)

mutual

/-- **A rendered value** shows its strings and keys, and ASCII around them, on one line. -/
theorem shown_of_mem_render : ∀ v : Json, ∀ c ∈ v.render, Shown v.texts c
  | .null => shown_of_ascii (by decide)
  | .bool true => shown_of_ascii (by decide)
  | .bool false => shown_of_ascii (by decide)
  | .num n => shown_of_ascii (ascii_renderNumber n)
  | .str _ => shown_of_mem_quote
  | .arr items =>
    List.forall_mem_cons.2 ⟨⟨by decide, Or.inl (by decide)⟩,
      List.forall_mem_append.2 ⟨shown_of_mem_renderItems items, shown_of_ascii (by decide)⟩⟩
  | .obj fields =>
    List.forall_mem_cons.2 ⟨⟨by decide, Or.inl (by decide)⟩,
      List.forall_mem_append.2 ⟨shown_of_mem_renderFields fields, shown_of_ascii (by decide)⟩⟩

theorem shown_of_mem_renderItems :
    ∀ items : List Json, ∀ c ∈ renderItems items, Shown (itemTexts items) c
  | [] => fun _ hc => nomatch hc
  | [v] => shown_mono (shown_of_mem_render v) (List.subset_append_left _ _)
  | v :: w :: vs =>
    List.forall_mem_append.2 ⟨shown_mono (shown_of_mem_render v) (List.subset_append_left _ _),
      List.forall_mem_append.2 ⟨shown_of_ascii (by decide),
        shown_mono (shown_of_mem_renderItems (w :: vs)) (List.subset_append_right _ _)⟩⟩

theorem shown_of_mem_renderFields :
    ∀ fields : List (Text × Json), ∀ c ∈ renderFields fields, Shown (fieldTexts fields) c
  | [] => fun _ hc => nomatch hc
  | [(key, v)] =>
    List.forall_mem_append.2 ⟨shown_mono shown_of_mem_quote (key_subset key v []),
      List.forall_mem_append.2 ⟨shown_of_ascii (by decide),
        shown_mono (shown_of_mem_render v) (value_subset key v [])⟩⟩
  | (key, v) :: f :: fields =>
    List.forall_mem_append.2 ⟨shown_mono shown_of_mem_quote (key_subset key v (f :: fields)),
      List.forall_mem_append.2 ⟨shown_of_ascii (by decide),
        List.forall_mem_append.2 ⟨shown_mono (shown_of_mem_render v) (value_subset key v (f :: fields)),
          List.forall_mem_append.2 ⟨shown_of_ascii (by decide),
            shown_mono (shown_of_mem_renderFields (f :: fields)) (fields_subset key v (f :: fields))⟩⟩⟩⟩

end

namespace Reader

/-! ## Strings -/

theorem hex?_ofDigitLower {d : Nat} (h : d < 16) : (CodePoint.ofDigitLower d).hex? = some d := by
  revert d
  decide

/-- Four hexadecimal digits are read as the number that they write. -/
theorem codeUnit?_hexFixedLower {n : Nat} (h : n < 0x10000) : ∃ h₁ h₂ h₃ h₄,
    Text.hexFixedLower 4 n = [h₁, h₂, h₃, h₄] ∧ codeUnit? h₁ h₂ h₃ h₄ = some n := by
  refine ⟨_, _, _, _, rfl, ?_⟩
  have digit (m : Nat) : (CodePoint.ofDigitLower (m % 16)).hex? = some (m % 16) :=
    hex?_ofDigitLower (Nat.mod_lt m (by decide))
  rw [codeUnit?, digit, digit, digit, digit]
  show some _ = some n
  congr 1
  omega

/-- The code unit that has just been read is that of a control character, so it begins no pair. -/
def Alone (unit : Option Nat) : Prop := ∀ u ∈ unit, u < 0x20

theorem alone_none : Alone none := nofun

theorem pair?_of_alone {unit : Option Nat} (h : Alone unit) (next : Nat) :
    unit.bind (pair? · next) = none := by
  cases unit with
  | none => rfl
  | some u =>
    have low := h u rfl
    show pair? u next = none
    rw [pair?, if_neg]
    omega

/-- **One code point** is read back, however it is written. -/
theorem stringBody_escape (c : CodePoint) {unit : Option Nat} (alone : Alone unit) (read rest : Text) :
    ∃ unit', Alone unit'
      ∧ stringBody unit read (escape c ++ rest) = stringBody unit' (c :: read) rest := by
  have written := written_escape c
  generalize escape c = e at written
  cases written with
  | letter l ascii other known =>
    refine ⟨none, alone_none, ?_⟩
    show stringBody unit read (CodePoint.ofChar '\\' :: l :: rest) = _
    rw [stringBody.eq_def]
    simp only [other, known]
    rfl
  | number control =>
    obtain ⟨h₁, h₂, h₃, h₄, digits, value⟩ := codeUnit?_hexFixedLower (n := c.val) (by omega)
    refine ⟨some c.val, ?_, ?_⟩
    · intro u hu
      obtain rfl := Option.some.inj hu
      exact control
    · have point : (CodePoint.ofNat? c.val).getD default = c := by
        rw [CodePoint.ofNat?, dif_pos c.isLt]
        rfl
      rw [digits]
      show stringBody unit read
        (CodePoint.ofChar '\\' :: CodePoint.ofChar 'u' :: h₁ :: h₂ :: h₃ :: h₄ :: rest) = _
      rw [stringBody.eq_def]
      simp only [value, pair?_of_alone alone, point]
      rfl
  | itself quote backslash visible =>
    refine ⟨none, alone_none, ?_⟩
    show stringBody unit read (c :: rest) = _
    rw [stringBody.eq_def]
    simp only [quote, backslash]
    rw [if_neg Bool.false_ne_true, if_neg Bool.false_ne_true, if_neg (by omega)]

/-- The code points of a string are read one by one.  By induction on them. -/
theorem stringBody_flatMap (t : Text) {unit : Option Nat} (alone : Alone unit) (read rest : Text) :
    stringBody unit read (t.flatMap escape ++ CodePoint.ofChar '"' :: rest)
      = .ok (read.reverse ++ t, rest) := by
  induction t generalizing unit read with
  | nil =>
    show stringBody unit read (CodePoint.ofChar '"' :: rest) = _
    rw [stringBody.eq_def, List.append_nil]
    rfl
  | cons c t ih =>
    obtain ⟨unit', alone', step⟩ := stringBody_escape c alone read
      (t.flatMap escape ++ CodePoint.ofChar '"' :: rest)
    rw [List.flatMap_cons, List.append_assoc, step, ih alone', List.reverse_cons, List.append_assoc]
    rfl

theorem string_escaped (t rest : Text) :
    string (t.flatMap escape ++ CodePoint.ofChar '"' :: rest) = .ok (t, rest) :=
  stringBody_flatMap t alone_none [] rest

/-! ## Numbers -/

/-- What may follow a value: nothing, a comma, or what closes an array or an object. -/
inductive Ends : Text → Prop
  | nothing : Ends []
  | comma (t : Text) : Ends (CodePoint.ofChar ',' :: t)
  | bracket (t : Text) : Ends (CodePoint.ofChar ']' :: t)
  | brace (t : Text) : Ends (CodePoint.ofChar '\x7d' :: t)

/-- A value goes on with none of these: no digit, no point and no exponent. -/
theorem Ends.stops {rest : Text} (h : Ends rest) : rest.head?.any CodePoint.isDecimal = false
    ∧ fraction rest = ([], rest) ∧ exponent rest = (none, rest) := by
  cases h <;> exact ⟨rfl, rfl, rfl⟩

theorem integerPart_ofNat (n : Nat) {rest : Text} (stop : rest.head?.any CodePoint.isDecimal = false) :
    integerPart (Text.ofNat n ++ rest) = some (Text.ofNat n, rest) := by
  rcases Nat.eq_zero_or_pos n with rfl | pos
  · rfl
  · obtain ⟨d, ds, hds, hd⟩ := exists_cons_of_digitsWithin (by decide : 1 < 10) (Nat.lt_succ_self n) pos
    have written : Text.ofNat n = CodePoint.ofDigit d :: ds.map CodePoint.ofDigit := by
      rw [Text.ofNat, digits, hds, List.map_cons]
    have below : d < 10 := by
      have listed : d ∈ digitsWithin (n + 1) 10 n := hds ▸ List.mem_cons_self
      exact lt_of_mem_digitsWithin (by decide) listed
    have leading : ∀ d < 10, 0 < d →
        (CodePoint.ofDigit d).is '0' = false ∧ (CodePoint.ofDigit d).within '1' '9' = true := by
      decide
    have digits : ∀ c ∈ ds.map CodePoint.ofDigit, c.isDecimal = true := by
      intro c hc
      exact Text.isDecimal_of_mem_ofNat (written ▸ List.mem_cons_of_mem _ hc)
    rw [written, List.cons_append, integerPart, (leading d below hd).1, (leading d below hd).2,
      Text.takeWhile_digits digits stop, Text.dropWhile_digits digits stop]
    rfl

section Numbers

variable {limit : Option Nat}

theorem is_eq_false_of_isDecimal {c : CodePoint} {x : Char} (decimal : c.isDecimal = true)
    (other : (CodePoint.ofChar x).isDecimal = false) : c.is x = false := by
  rw [← Bool.not_eq_true]
  intro same
  rw [CodePoint.is_iff.1 same, other] at decimal
  cases decimal

theorem magnitude_ofNat {n : Nat} (short : ∀ l ∈ limit, (Text.ofNat n).length ≤ l) (s : Int) {rest : Text}
    (ends : Ends rest) : magnitude limit s (Text.ofNat n ++ rest) = .ok (.int (s * n), rest) := by
  obtain ⟨stop, places, power⟩ := ends.stops
  have long : limit.any (· < (Text.ofNat n).length) = false := by
    cases limit with
    | none => rfl
    | some l => exact decide_eq_false (Nat.not_lt.2 (short l rfl))
  simp only [magnitude, integerPart_ofNat n stop, places, power, List.isEmpty_nil, long,
    Text.decimalValue_ofNat]
  rfl

/-- A word with a letter where the text has a digit is not at the beginning of the text. -/
theorem behind?_eq_none {word t : Text} (i : Nat) (letter : word[i]?.any (!·.isDecimal) = true)
    (digit : t[i]?.any CodePoint.isDecimal = true) : behind? word t = none := by
  rw [behind?, if_neg]
  intro begins
  obtain ⟨more, rfl⟩ := List.isPrefixOf_iff_prefix.1 begins
  cases here : word[i]? with
  | none =>
    rw [here] at letter
    cases letter
  | some c =>
    rw [here] at letter
    rw [List.getElem?_append_left (List.getElem?_eq_some_iff.1 here).1, here] at digit
    have decimal : c.isDecimal = true := digit
    have other : (!c.isDecimal) = true := letter
    rw [decimal] at other
    cases other

/-- What has a digit at its beginning, or behind one code point, is no word. -/
theorem findSome?_words {t : Text} (digit : t[0]?.any CodePoint.isDecimal = true
    ∨ t[1]?.any CodePoint.isDecimal = true) :
    (words.findSome? fun (word, v) => (behind? word t).map (v, ·)) = none := by
  have letters : ∀ p ∈ words,
      p.1[0]?.any (!·.isDecimal) = true ∧ p.1[1]?.any (!·.isDecimal) = true := by
    decide
  refine List.findSome?_eq_none_iff.2 fun p hp => ?_
  have none : behind? p.1 t = none := by
    rcases digit with digit | digit
    · exact behind?_eq_none 0 (letters p hp).1 digit
    · exact behind?_eq_none 1 (letters p hp).2 digit
  show (behind? p.1 t).map _ = _
  rw [none]
  rfl

theorem exists_cons_of_ofNat (n : Nat) : ∃ c t, Text.ofNat n = c :: t ∧ c.isDecimal = true := by
  cases written : Text.ofNat n with
  | nil => exact absurd written (Text.ofNat_ne_nil n)
  | cons c t => exact ⟨c, t, rfl, Text.isDecimal_of_mem_ofNat (written ▸ List.mem_cons_self)⟩

/-- An integer is read back, up to something that ends it. -/
theorem scalar_ofInt {n : Int} (short : ∀ l ∈ limit, (Text.ofNat n.natAbs).length ≤ l) {rest : Text}
    (ends : Ends rest) : scalar limit (Text.ofInt n ++ rest) = .ok (.int n, rest) := by
  obtain ⟨c, t, written, decimal⟩ := exists_cons_of_ofNat n.natAbs
  have read (s : Int) := magnitude_ofNat short s ends
  rw [written] at read
  unfold scalar
  cases n with
  | ofNat k =>
    have unsigned : c.is '-' = false := is_eq_false_of_isDecimal decimal rfl
    have digit : (c :: t ++ rest)[0]?.any CodePoint.isDecimal = true := decimal
    rw [show Text.ofInt (.ofNat k) = c :: t from written, findSome?_words (Or.inl digit)]
    simp only [List.cons_append, unsigned]
    show (magnitude limit 1 (c :: t ++ rest) >>= _) = _
    rw [read 1, Int.one_mul]
    rfl
  | negSucc k =>
    have digit : (CodePoint.ofChar '-' :: c :: t ++ rest)[1]?.any CodePoint.isDecimal = true := decimal
    rw [show Text.ofInt (.negSucc k) = CodePoint.ofChar '-' :: c :: t from congrArg _ written,
      findSome?_words (Or.inr digit)]
    show (magnitude limit (-1) (c :: t ++ rest) >>= _) = _
    rw [read (-1), Int.neg_one_mul]
    rfl

end Numbers

/-! ## One call of the reader -/

section Calls

variable {limit : Option Nat} {fuel : Nat} {c : CodePoint} {key t u rest : Text} {v : Json}
variable {vs : List Json} {fields read : List (Text × Json)}

theorem skipBlank_space (h : isBlank c = false) (t : Text) :
    skipBlank (CodePoint.ofChar ' ' :: c :: t) = c :: t :=
  (List.dropWhile_cons_of_pos rfl).trans (skipBlank_cons h t)

theorem value_quote : value limit (fuel + 1) (quote t ++ rest) = .ok (.str t, rest) := by
  rw [quote, List.cons_append, List.append_assoc, value]
  show (string (t.flatMap escape ++ CodePoint.ofChar '"' :: rest) >>= _) = _
  rw [string_escaped]
  rfl

theorem value_brace (below : members limit fuel [] (quote key ++ t) = .ok (fields, rest)) :
    value limit (fuel + 1) (CodePoint.ofChar '\x7b' :: (quote key ++ t)) = .ok (.obj fields, rest) := by
  rw [value, quote, List.cons_append, skipBlank_cons rfl]
  show (members limit fuel [] (quote key ++ t) >>= _) = _
  rw [below]
  rfl

theorem items_more (first : value limit fuel t = .ok (v, (", " : Text) ++ c :: u))
    (blank : isBlank c = false) (more : items limit fuel (c :: u) = .ok (vs, rest)) :
    items limit (fuel + 1) t = .ok (v :: vs, rest) := by
  rw [items, first]
  show (items limit fuel (skipBlank (CodePoint.ofChar ' ' :: c :: u)) >>= _) = _
  rw [skipBlank_space blank, more]
  rfl

/-- A key that is read leaves the value behind its colon. -/
theorem members_quote (blank : isBlank c = false) :
    members limit (fuel + 1) read (quote key ++ ((": " : Text) ++ c :: t)) = (do
      let (v, rest) ← value limit fuel (c :: t)
      match skipBlank rest with
      | [] => .error .malformed
      | d :: rest =>
        if d.is '\x7d' then return (put key v read, rest)
        else if d.is ',' then members limit fuel (put key v read) (skipBlank rest)
        else .error .malformed) := by
  rw [quote, List.cons_append, List.append_assoc, members]
  show (string (key.flatMap escape ++ CodePoint.ofChar '"' :: ((": " : Text) ++ c :: t)) >>= _) = _
  rw [string_escaped]
  show (value limit fuel (skipBlank (CodePoint.ofChar ' ' :: c :: t)) >>= _) = _
  refine (congrArg (value limit fuel · >>= _) (skipBlank_space blank t)).trans ?_
  rfl

theorem members_last (blank : isBlank c = false)
    (first : value limit fuel (c :: t) = .ok (v, CodePoint.ofChar '\x7d' :: rest)) :
    members limit (fuel + 1) read (quote key ++ ((": " : Text) ++ c :: t)) = .ok (put key v read, rest) := by
  rw [members_quote blank, first]
  rfl

theorem members_more {next : Text} (blank : isBlank c = false)
    (first : value limit fuel (c :: t) = .ok (v, (", " : Text) ++ (quote next ++ u)))
    (more : members limit fuel (put key v read) (quote next ++ u) = .ok (fields, rest)) :
    members limit (fuel + 1) read (quote key ++ ((": " : Text) ++ c :: t)) = .ok (fields, rest) := by
  rw [members_quote blank, first]
  show members limit fuel (put key v read) (skipBlank (CodePoint.ofChar ' ' :: (quote next ++ u))) = _
  rw [quote, List.cons_append, skipBlank_space rfl]
  exact more

end Calls

end Reader

/-! ## A whole value -/

/-- What is read back: a value without decimals, whose integers have no more digits than are read and
    whose objects have no key twice. -/
inductive Readable (limit : Option Nat) : Json → Prop
  | null : Readable limit .null
  | bool (b : Bool) : Readable limit (.bool b)
  | int {n : Int} (short : ∀ l ∈ limit, (Text.ofNat n.natAbs).length ≤ l) : Readable limit (.int n)
  | str (t : Text) : Readable limit (.str t)
  | arr {items : List Json} (each : ∀ v ∈ items, Readable limit v) : Readable limit (.arr items)
  | obj {fields : List (Text × Json)} (distinct : (fields.map Prod.fst).Nodup)
    (each : ∀ f ∈ fields, Readable limit f.2) : Readable limit (.obj fields)

theorem put_of_not_mem {key : Text} {fields : List (Text × Json)} (fresh : key ∉ fields.map Prod.fst)
    (v : Json) : put key v fields = fields ++ [(key, v)] := by
  induction fields with
  | nil => rfl
  | cons f fields ih =>
    rw [List.map_cons, List.mem_cons, not_or] at fresh
    rw [put, if_neg (Ne.symm fresh.1), ih fresh.2]
    rfl

theorem fresh_of_nodup {key : Text} {v : Json} {read fields : List (Text × Json)}
    (distinct : ((read ++ (key, v) :: fields).map Prod.fst).Nodup) : key ∉ read.map Prod.fst := by
  rw [List.map_append, List.nodup_append] at distinct
  exact fun twice => distinct.2.2 key twice key List.mem_cons_self rfl

namespace Reader

variable {limit : Option Nat}

/-- A value begins with no blank and with nothing that closes an array. -/
theorem exists_cons_of_render {v : Json} (h : v.Readable limit) :
    ∃ c t, v.render = c :: t ∧ isBlank c = false ∧ c.is ']' = false := by
  have digit {c : CodePoint} (decimal : c.isDecimal = true) : isBlank c = false ∧ c.is ']' = false := by
    refine ⟨?_, is_eq_false_of_isDecimal decimal rfl⟩
    rw [isBlank, is_eq_false_of_isDecimal decimal rfl, is_eq_false_of_isDecimal decimal rfl,
      is_eq_false_of_isDecimal decimal rfl, is_eq_false_of_isDecimal decimal rfl]
    rfl
  cases h with
  | null => exact ⟨_, _, rfl, rfl, rfl⟩
  | bool b => cases b <;> exact ⟨_, _, rfl, rfl, rfl⟩
  | @int n =>
    obtain ⟨c, t, written, decimal⟩ := exists_cons_of_ofNat n.natAbs
    cases n with
    | ofNat k => exact ⟨c, t, written, digit decimal⟩
    | negSucc k => exact ⟨_, _, rfl, rfl, rfl⟩
  | str t => exact ⟨_, _, rfl, rfl, rfl⟩
  | arr => exact ⟨_, _, rfl, rfl, rfl⟩
  | obj => exact ⟨_, _, rfl, rfl, rfl⟩

theorem exists_cons_of_renderItems {v : Json} (h : v.Readable limit) (vs : List Json) :
    ∃ c t, renderItems (v :: vs) = c :: t ∧ isBlank c = false ∧ c.is ']' = false := by
  obtain ⟨c, t, begins, first⟩ := exists_cons_of_render h
  cases vs with
  | nil => exact ⟨c, t, begins, first⟩
  | cons w vs =>
    refine ⟨c, t ++ ((", " : Text) ++ renderItems (w :: vs)), ?_, first⟩
    rw [renderItems, begins, List.cons_append]
    exact nofun

/-- The value is read from the front of a text, if the calls suffice for its length. -/
def Reads (limit : Option Nat) (v : Json) : Prop :=
  ∀ fuel rest, 2 * v.render.length ≤ fuel → Ends rest →
    value limit (fuel + 1) (v.render ++ rest) = .ok (v, rest)

/-- Fields begin with the first key. -/
theorem exists_append_of_renderFields (key : Text) (v : Json) (fields : List (Text × Json)) :
    ∃ u, renderFields ((key, v) :: fields) = quote key ++ u := by
  cases fields <;> exact ⟨_, rfl⟩

/-- The items of an array are read up to its bracket.  By induction on the items. -/
theorem items_renderItems {v : Json} {vs : List Json} (readable : ∀ w ∈ v :: vs, w.Readable limit)
    (reads : ∀ w ∈ v :: vs, Reads limit w) (fuel : Nat)
    (enough : 2 * (renderItems (v :: vs)).length ≤ fuel) (rest : Text) :
    items limit (fuel + 2) (renderItems (v :: vs) ++ CodePoint.ofChar ']' :: rest) = .ok (v :: vs, rest) := by
  induction vs generalizing v fuel with
  | nil =>
    have here := reads v List.mem_cons_self
    exact items_last (here fuel _ enough (.bracket rest))
  | cons w vs ih =>
    obtain ⟨-, readable⟩ := List.forall_mem_cons.1 readable
    obtain ⟨here, reads⟩ := List.forall_mem_cons.1 reads
    have written : renderItems (v :: w :: vs) = v.render ++ ((", " : Text) ++ renderItems (w :: vs)) := rfl
    have separator : (", " : Text).length = 2 := rfl
    rw [written, List.length_append, List.length_append] at enough
    obtain ⟨fuel, rfl⟩ : ∃ k, fuel = k + 1 := ⟨fuel - 1, by omega⟩
    have more := ih readable reads fuel (by omega)
    obtain ⟨c, t, begins, blank, -⟩ := exists_cons_of_renderItems (readable w List.mem_cons_self) vs
    rw [written, List.append_assoc, List.append_assoc]
    rw [begins] at more ⊢
    exact items_more (here _ _ (by omega) (.comma _)) blank more

/-- The fields of an object are read up to its brace, behind those that have been read, if there is no key
    twice among all of them.  By induction on the fields. -/
theorem members_renderFields {key : Text} {v : Json} {fields : List (Text × Json)}
    (readable : ∀ f ∈ (key, v) :: fields, f.2.Readable limit)
    (reads : ∀ f ∈ (key, v) :: fields, Reads limit f.2) (read : List (Text × Json))
    (distinct : ((read ++ (key, v) :: fields).map Prod.fst).Nodup) (fuel : Nat)
    (enough : 2 * (renderFields ((key, v) :: fields)).length ≤ fuel) (rest : Text) :
    members limit (fuel + 2) read (renderFields ((key, v) :: fields) ++ CodePoint.ofChar '\x7d' :: rest)
      = .ok (read ++ (key, v) :: fields, rest) := by
  have colon : (": " : Text).length = 2 := rfl
  have comma : (", " : Text).length = 2 := rfl
  induction fields generalizing key v read fuel with
  | nil =>
    obtain ⟨c, t, begins, blank, -⟩ := exists_cons_of_render (readable (key, v) List.mem_cons_self)
    have here : Reads limit v := reads (key, v) List.mem_cons_self
    have written : renderFields [(key, v)] = quote key ++ ((": " : Text) ++ v.render) := rfl
    rw [written, List.length_append, List.length_append] at enough
    have first := here fuel _ (by omega) (.brace rest)
    rw [written, List.append_assoc, List.append_assoc, ← put_of_not_mem (fresh_of_nodup distinct)]
    rw [begins] at first ⊢
    exact members_last blank first
  | cons g fields ih =>
    obtain ⟨next, w⟩ := g
    obtain ⟨c, t, begins, blank, -⟩ := exists_cons_of_render (readable (key, v) List.mem_cons_self)
    have here : Reads limit v := reads (key, v) List.mem_cons_self
    have written : renderFields ((key, v) :: (next, w) :: fields) = quote key
      ++ ((": " : Text) ++ (v.render ++ ((", " : Text) ++ renderFields ((next, w) :: fields)))) := rfl
    rw [written, List.length_append, List.length_append, List.length_append, List.length_append] at enough
    obtain ⟨fuel, rfl⟩ : ∃ k, fuel = k + 1 := ⟨fuel - 1, by omega⟩
    have first := here (fuel + 1) _ (by omega)
      (.comma (CodePoint.ofChar ' ' :: (renderFields ((next, w) :: fields) ++ CodePoint.ofChar '\x7d' :: rest)))
    have more := ih (List.forall_mem_cons.1 readable).2 (List.forall_mem_cons.1 reads).2
      (read ++ [(key, v)]) (by rwa [List.append_assoc]) fuel (by omega)
    rw [List.append_assoc, ← put_of_not_mem (fresh_of_nodup distinct)] at more
    obtain ⟨u, follows⟩ := exists_append_of_renderFields next w fields
    rw [follows, List.append_assoc] at first more
    simp only [written, follows, List.append_assoc]
    rw [begins] at first ⊢
    exact members_more blank first more

theorem value_ofInt {n : Int} (short : ∀ l ∈ limit, (Text.ofNat n.natAbs).length ≤ l) (fuel : Nat)
    {rest : Text} (ends : Ends rest) : value limit (fuel + 1) (Text.ofInt n ++ rest) = .ok (.int n, rest) := by
  have read := scalar_ofInt short ends
  cases n with
  | ofNat k =>
    obtain ⟨c, t, written, decimal⟩ := exists_cons_of_ofNat k
    rw [show Text.ofInt (.ofNat k) = c :: t from written, List.cons_append] at read ⊢
    rw [value, is_eq_false_of_isDecimal decimal rfl, is_eq_false_of_isDecimal decimal rfl,
      is_eq_false_of_isDecimal decimal rfl]
    exact read
  | negSucc k => exact read

/-- **The crux.**  A value is read from the front of a text.  By induction on the value. -/
theorem value_render {v : Json} (h : v.Readable limit) : Reads limit v := by
  have bracket : ("]" : Text).length = 1 := rfl
  induction h with
  | null => exact fun _ _ _ _ => rfl
  | bool b => cases b <;> exact fun _ _ _ _ => rfl
  | int short => exact fun fuel _ _ ends => value_ofInt short fuel ends
  | str t => exact fun _ _ _ _ => value_quote
  | @arr vs each ih =>
    intro fuel rest enough ends
    cases vs with
    | nil => rfl
    | cons v vs =>
      rw [render, List.length_cons, List.length_append] at enough
      obtain ⟨fuel, rfl⟩ : ∃ k, fuel = k + 2 := ⟨fuel - 2, by omega⟩
      have below := items_renderItems each ih fuel (by omega) rest
      obtain ⟨c, t, begins, blank, other⟩ := exists_cons_of_renderItems (each v List.mem_cons_self) vs
      rw [render, List.cons_append, List.append_assoc]
      rw [begins] at below ⊢
      exact value_bracket blank other below
  | @obj fields distinct each ih =>
    intro fuel rest enough ends
    cases fields with
    | nil => rfl
    | cons f fields =>
      obtain ⟨key, v⟩ := f
      rw [render, List.length_cons, List.length_append, List.length_singleton] at enough
      obtain ⟨fuel, rfl⟩ : ∃ k, fuel = k + 2 := ⟨fuel - 2, by omega⟩
      have below := members_renderFields each ih [] distinct fuel (by omega) rest
      obtain ⟨u, begins⟩ := exists_append_of_renderFields key v fields
      rw [render, List.cons_append, List.append_assoc]
      rw [begins, List.append_assoc] at below ⊢
      exact value_brace below

end Reader

/-- **The round trip.**  What is printed of a value is read back as the value. -/
theorem parseWithin_render {limit : Option Nat} {v : Json} (h : v.Readable limit) :
    parseWithin limit v.render = .ok v := by
  obtain ⟨c, t, begins, blank, -⟩ := Reader.exists_cons_of_render h
  have read := Reader.value_render h (2 * v.render.length + 1) [] (by omega) .nothing
  rw [List.append_nil] at read
  have front : Reader.skipBlank v.render = v.render := by rw [begins, Reader.skipBlank_cons blank]
  rw [parseWithin, front, read]
  rfl

end Json

end NegationLint
