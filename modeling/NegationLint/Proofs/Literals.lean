/-
  Literals read back.

  What is written between double quotes is read back as the text that was written, whatever stands behind it.
  Code points are escaped one at a time, and nothing marks where one ends and the next begins, so the reader
  has to find the seams again:

  1. `inside_passed` — an escape that has been read is passed over and nothing more;
  2. `hexValue?_hexFixed`, `hexValue?_hex` — the digits of an escape give its number back, whatever
     digits stand behind a fixed number of them;
  3. `Written` — the two ways to write a code point: as itself, or as a backslash and an escape that is read
     back as this code point.  `written_escape` goes through all cases of the writer once;
  4. THE CRUX (`inside_escapeAll`): a number sign is judged by the code point behind it, but the reader sees
     what that one has been WRITTEN as.  It is written as itself or begins with a backslash
     (`Written.head?_eq_or`), and a backslash begins no interpolation, so the reader never sees one that the
     writer has not seen;
  5. `readQuoted_append` — a literal that has been read is the same in front of any other text.  So no
     literal is the beginning of another one, and none is closed before its end.
-/
import Mathlib.Algebra.Group.Nat.Defs
import Mathlib.Data.List.Infix
import NegationLint.Ruby.Reader

namespace NegationLint

namespace Ruby

/-! ## Steps of the reader -/

section Steps

variable {c d : CodePoint} {s t : Text}

theorem inside_quote : inside 0 (CodePoint.ofChar '"' :: t) = some ([], t) := rfl

/-- An escape that has been read is passed over. -/
theorem inside_passed (s t : Text) : inside s.length (s ++ t) = inside 0 t := by
  induction s with
  | nil => rfl
  | cons c s ih => exact ih

/-- A code point that stands for itself. -/
theorem inside_itself (quote : c.is '"' = false) (backslash : c.is '\\' = false)
    (plain : c.is '#' = true → t.head?.any opensInterpolation = false) :
    inside 0 (c :: t) = (inside 0 t).map (readBefore c) := by
  have known : (c.is '#' && t.head?.any opensInterpolation) = false := by
    cases sign : c.is '#' with
    | true => rw [plain sign, Bool.and_false]
    | false => rfl
  rw [inside, quote, backslash, known]
  rfl

/-- An escape behind its backslash. -/
theorem inside_escaped (h : readEscape (s ++ t) = some (c, s.length)) :
    inside 0 (CodePoint.ofChar '\\' :: (s ++ t)) = (inside 0 t).map (readBefore c) := by
  show (readEscape (s ++ t)).bind (fun e => (inside e.2 (s ++ t)).map (readBefore e.1)) = _
  rw [h, ← inside_passed s t]
  rfl

/-- An interpolation is refused. -/
theorem inside_interpolation (h : opensInterpolation d = true) :
    inside 0 (CodePoint.ofChar '#' :: d :: t) = none := by
  show (if opensInterpolation d = true then none else _) = none
  rw [if_pos h]

end Steps

/-! ## Numbers -/

section Numbers

theorem hexValue?_concat (t : Text) (c : CodePoint) :
    hexValue? (t ++ [c]) = (hexValue? t).bind fun n => c.hex?.map (16 * n + ·) := by
  simp [hexValue?, List.foldlM_append]

theorem hexValue?_map_ofDigit {ds : List Nat} (h : ∀ d ∈ ds, d < 16) :
    hexValue? (ds.map CodePoint.ofDigit) = some (ds.foldl (fun n d => 16 * n + d) 0) := by
  induction ds using List.reverseRecOn with
  | nil => rfl
  | append_singleton ds d ih =>
    rw [List.map_append, List.map_singleton, hexValue?_concat, List.foldl_append,
      ih fun e he => h e (List.mem_append_left _ he), CodePoint.hex?_ofDigit (h d (by simp))]
    rfl

theorem hexValue?_hex (n : Nat) : hexValue? (Text.hex n) = some n := by
  have below : ∀ d ∈ digits 16 n, d < 16 := fun d hd => lt_of_mem_digitsWithin (by decide) hd
  rw [Text.hex, hexValue?_map_ofDigit below]
  exact congrArg some (foldl_digitsWithin (by decide) (Nat.lt_succ_self n))

theorem hexValue?_hexFixed {width n : Nat} (h : n < 16 ^ width) :
    hexValue? (Text.hexFixed width n) = some n := by
  induction width generalizing n with
  | zero =>
    obtain rfl : n = 0 := by omega
    rfl
  | succ width ih =>
    have digit : n % 16 < 16 := Nat.mod_lt n (by decide)
    rw [Text.hexFixed, hexValue?_concat, ih (by omega), Option.bind_some, CodePoint.hex?_ofDigit digit,
      Option.map_some, Nat.div_add_mod]

/-- No digit is a brace. -/
theorem is_brace_ofDigit {d : Nat} (h : d < 16) :
    (CodePoint.ofDigit d).is '\x7b' = false ∧ (CodePoint.ofDigit d).is '\x7d' = false := by
  revert d
  decide

end Numbers

/-! ## Escapes -/

section Escapes

variable {c : CodePoint} {t : Text}

theorem spelled?_of_hexValue? (h : hexValue? t = some c.val) (whole : c.isSurrogate = false) :
    spelled? t = some c := by
  have point : CodePoint.ofNat? c.val = some c := dif_pos c.isLt
  rw [spelled?, h, Option.bind_some, point, Option.filter_some, whole]
  rfl

theorem fixed?_hexFixed {width : Nat} (h : c.val < 16 ^ width) (whole : c.isSurrogate = false) (t : Text) :
    fixed? width (Text.hexFixed width c.val ++ t) = some c := by
  have size := Text.length_hexFixed width c.val
  have enough : width ≤ (Text.hexFixed width c.val ++ t).length := by
    rw [List.length_append, size]
    exact Nat.le_add_right _ _
  have front : (Text.hexFixed width c.val ++ t).take width = Text.hexFixed width c.val :=
    List.take_left' size
  rw [fixed?, if_pos enough, front, spelled?_of_hexValue? (hexValue?_hexFixed h) whole]

theorem braced?_hex (whole : c.isSurrogate = false) (t : Text) :
    braced? (Text.hex c.val ++ CodePoint.ofChar '\x7d' :: t) = some (c, (Text.hex c.val).length) := by
  have digits : ∀ d ∈ Text.hex c.val, (!d.is '\x7d') = true := by
    intro d hd
    obtain ⟨n, hn, rfl⟩ := List.mem_map.1 hd
    rw [(is_brace_ofDigit (lt_of_mem_digitsWithin (by decide) hn)).2]
    rfl
  have front : (Text.hex c.val ++ CodePoint.ofChar '\x7d' :: t).takeWhile (!·.is '\x7d')
      = Text.hex c.val := by
    rw [List.takeWhile_append_of_pos digits]
    exact List.append_nil _
  have closed : 0 < (Text.hex c.val).length
      ∧ (Text.hex c.val).length < (Text.hex c.val ++ CodePoint.ofChar '\x7d' :: t).length := by
    have := Text.length_hex_pos c.val
    rw [List.length_append, List.length_cons]
    omega
  rw [braced?, front, if_pos closed, spelled?_of_hexValue? (hexValue?_hex c.val) whole]
  rfl

theorem readEscape_named {d : CodePoint} (h : named? d = some c) : readEscape (d :: t) = some (c, 1) := by
  rw [readEscape, h]

theorem readEscape_x (h : c.val < 0x80) (whole : c.isSurrogate = false) :
    readEscape (CodePoint.ofChar 'x' :: (Text.hexFixed 2 c.val ++ t)) = some (c, 3) := by
  show (fixed? 2 (Text.hexFixed 2 c.val ++ t)).map (·, 3) = some (c, 3)
  rw [fixed?_hexFixed (by omega) whole]
  rfl

theorem readEscape_u (h : c.val ≤ 0xFFFF) (whole : c.isSurrogate = false) :
    readEscape (CodePoint.ofChar 'u' :: (Text.hexFixed 4 c.val ++ t)) = some (c, 5) := by
  have digit : (Text.hexFixed 4 c.val ++ t).head?.any (·.is '\x7b') = false := by
    exact (is_brace_ofDigit (Nat.mod_lt _ (by decide))).1
  show (if (Text.hexFixed 4 c.val ++ t).head?.any (·.is '\x7b') = true then _
    else (fixed? 4 (Text.hexFixed 4 c.val ++ t)).map (·, 5)) = some (c, 5)
  rw [digit, fixed?_hexFixed (by omega) whole]
  rfl

theorem readEscape_braced (whole : c.isSurrogate = false) :
    readEscape (CodePoint.ofChar 'u' :: CodePoint.ofChar '\x7b' ::
        ((Text.hex c.val ++ [CodePoint.ofChar '\x7d']) ++ t))
      = some (c, (Text.hex c.val ++ [CodePoint.ofChar '\x7d']).length + 2) := by
  rw [List.append_assoc, List.length_append]
  show (braced? (Text.hex c.val ++ CodePoint.ofChar '\x7d' :: t)).map (Prod.map id (· + 3)) = _
  rw [braced?_hex whole]
  rfl

end Escapes

/-! ## Code points as they are written -/

/-- One line of the table of escapes, and the lines below it. -/
theorem forall_line {P : Text → Prop} {p : Prop} [Decidable p] {e : Text} {below : Option Text}
    (here : p → P e) (others : ∀ e', below = some e' → P e') :
    ∀ e', (if p then some e else below) = some e' → P e' := by
  intro e' h
  by_cases applies : p
  · rw [if_pos applies] at h
    cases h
    exact here applies
  · rw [if_neg applies] at h
    exact others e' h

section Written

/-- The two ways to write a code point in front of `next`. -/
inductive Written (c : CodePoint) (next : Option CodePoint) : Text → Prop
  | itself (quote : c.is '"' = false) (backslash : c.is '\\' = false)
      (plain : c.is '#' = true → next.any opensInterpolation = false) : Written c next [c]
  | escaped (e : Text) (read : ∀ t, readEscape (e ++ t) = some (c, e.length)) :
      Written c next (CodePoint.ofChar '\\' :: e)

variable {keep : CodePoint → Bool} {c : CodePoint} {next : Option CodePoint} {e : Text}

/-- The escape of a code point that has one of its own. -/
theorem written_named : ∀ e, namedEscape? c = some e → Written c next e := by
  have named (d : Char) {x : CodePoint} (same : c = x) (back : named? (CodePoint.ofChar d) = some x) :
      Written c next [CodePoint.ofChar '\\', CodePoint.ofChar d] :=
    .escaped [CodePoint.ofChar d] fun t => readEscape_named (same ▸ back)
  refine forall_line (fun quote => named '"' (CodePoint.is_iff.1 quote) rfl) ?_
  refine forall_line (fun backslash => named '\\' (CodePoint.is_iff.1 backslash) rfl) ?_
  refine forall_line (fun newline => named 'n' (CodePoint.is_iff.1 newline) rfl) ?_
  refine forall_line (fun ret => named 'r' (CodePoint.is_iff.1 ret) rfl) ?_
  refine forall_line (fun tab => named 't' (CodePoint.is_iff.1 tab) rfl) ?_
  refine forall_line (fun feed => named 'f' (CodePoint.ext_val feed) rfl) ?_
  refine forall_line (fun vertical => named 'v' (CodePoint.ext_val vertical) rfl) ?_
  refine forall_line (fun back => named 'b' (CodePoint.ext_val back) rfl) ?_
  refine forall_line (fun bell => named 'a' (CodePoint.ext_val bell) rfl) ?_
  refine forall_line (fun esc => named 'e' (CodePoint.ext_val esc) rfl) ?_
  exact fun e h => nomatch h

/-- What has no escape of its own is neither a quote nor a backslash. -/
theorem is_quote_of_not_named (h : namedEscape? c = none) :
    c.is '"' = false ∧ c.is '\\' = false := by
  constructor
  · rw [← Bool.not_eq_true]
    intro quote
    rw [CodePoint.is_iff.1 quote] at h
    cases h
  · rw [← Bool.not_eq_true]
    intro backslash
    rw [CodePoint.is_iff.1 backslash] at h
    cases h

/-- **One code point** is written in one of the two ways. -/
theorem written_escape (keep : CodePoint → Bool) (whole : c.isSurrogate = false)
    (next : Option CodePoint) : Written c next (escape keep c next) := by
  rw [escape]
  cases h : namedEscape? c with
  | some e => exact written_named e h
  | none =>
    obtain ⟨quote, backslash⟩ := is_quote_of_not_named h
    have itself (other : c.is '#' = false) : Written c next [c] :=
      .itself quote backslash fun sign => absurd sign (other ▸ Bool.false_ne_true)
    split_ifs with sign opens visible ascii kept
    · obtain rfl := CodePoint.is_iff.1 sign
      exact .escaped [CodePoint.ofChar '#'] fun t => rfl
    · obtain rfl := CodePoint.is_iff.1 sign
      exact .itself rfl rfl fun _ => Bool.not_eq_true _ ▸ opens
    · exact itself (Bool.not_eq_true _ ▸ sign)
    · exact .escaped (CodePoint.ofChar 'x' :: Text.hexFixed 2 c.val) fun t => readEscape_x ascii whole
    · exact itself (Bool.not_eq_true _ ▸ sign)
    · rw [unicodeEscape]
      split_ifs with basic
      · exact .escaped (CodePoint.ofChar 'u' :: Text.hexFixed 4 c.val) fun t => readEscape_u basic whole
      · exact .escaped (CodePoint.ofChar 'u' :: CodePoint.ofChar '\x7b' ::
          (Text.hex c.val ++ [CodePoint.ofChar '\x7d'])) fun t => readEscape_braced whole

theorem Written.head?_eq_or (h : Written c next e) :
    e.head? = some c ∨ e.head? = some (CodePoint.ofChar '\\') := by
  cases h with
  | itself => exact Or.inl rfl
  | escaped => exact Or.inr rfl

/-- A code point is read back if the reader sees an interpolation behind it only where the writer has
    seen one. -/
theorem inside_written (h : Written c next e) {t : Text}
    (sees : t.head?.any opensInterpolation = true → next.any opensInterpolation = true) :
    inside 0 (e ++ t) = (inside 0 t).map (readBefore c) := by
  cases h with
  | itself quote backslash plain =>
    refine inside_itself quote backslash fun sign => ?_
    rw [← Bool.not_eq_true]
    intro opens
    exact Bool.false_ne_true ((plain sign).symm.trans (sees opens))
  | escaped e read => exact inside_escaped (read t)

end Written

/-! ## Literals -/

section Literals

variable {keep : CodePoint → Bool} {value t : Text}

/-- No interpolation is seen that is not in the text itself. -/
theorem opensInterpolation_of_escapeAll (encodable : value.isEncodable = true)
    (behind : t.head?.any opensInterpolation = false)
    (h : (escapeAll keep value ++ t).head?.any opensInterpolation = true) :
    value.head?.any opensInterpolation = true := by
  cases value with
  | nil => exact absurd h (behind ▸ Bool.false_ne_true)
  | cons c value =>
    obtain ⟨whole, -⟩ := Text.isEncodable_cons.1 encodable
    rw [escapeAll_cons, List.append_assoc] at h
    rcases (written_escape keep whole value.head?).head?_eq_or with first | first
    · rw [List.head?_append, first] at h
      exact h
    · rw [List.head?_append, first] at h
      exact absurd h Bool.false_ne_true

/-- **A text** is read back as it was, in front of whatever does not make an interpolation of its
    last code point. -/
theorem inside_escapeAll (encodable : value.isEncodable = true)
    (behind : t.head?.any opensInterpolation = false) :
    inside 0 (escapeAll keep value ++ t) = (inside 0 t).map (Prod.map (value ++ ·) id) := by
  induction value with
  | nil => exact Option.map_id'.symm
  | cons c value ih =>
    obtain ⟨whole, rest⟩ := Text.isEncodable_cons.1 encodable
    rw [escapeAll_cons, List.append_assoc, inside_written (written_escape keep whole _)
      (opensInterpolation_of_escapeAll rest behind), ih rest, Option.map_map]
    rfl

theorem readQuoted_quoted (keep : CodePoint → Bool) (encodable : value.isEncodable = true) (rest : Text) :
    readQuoted (quoted keep value ++ rest) = some (value, rest) := by
  show inside 0 (escapeAll keep value ++ [CodePoint.ofChar '"'] ++ rest) = some (value, rest)
  rw [List.append_assoc, List.singleton_append, inside_escapeAll encodable rfl, inside_quote]
  show some (value ++ [], rest) = some (value, rest)
  rw [List.append_nil]

/-- An interpolation in the place of the closing quote is refused. -/
theorem readQuoted_interpolation (keep : CodePoint → Bool) (encodable : value.isEncodable = true)
    {d : CodePoint} (h : opensInterpolation d = true) (rest : Text) :
    readQuoted ((quoted keep value).dropLast ++ CodePoint.ofChar '#' :: d :: rest) = none := by
  have opened : (quoted keep value).dropLast = CodePoint.ofChar '"' :: escapeAll keep value := by
    rw [quoted, ← List.cons_append, List.dropLast_concat]
  rw [opened]
  show inside 0 (escapeAll keep value ++ CodePoint.ofChar '#' :: d :: rest) = none
  rw [inside_escapeAll encodable rfl, inside_interpolation h]
  rfl

end Literals

/-! ## More text behind a literal -/

section More

variable {c : CodePoint} {n : Nat} {s value rest : Text}

theorem fixed?_append {width : Nat} (h : fixed? width s = some c) (t : Text) :
    fixed? width (s ++ t) = some c := by
  rw [fixed?] at h ⊢
  split_ifs at h with enough
  have still : width ≤ (s ++ t).length := by
    rw [List.length_append]
    omega
  rw [if_pos still, List.take_append_of_le_length enough, h]

theorem braced?_append (h : braced? s = some (c, n)) (t : Text) : braced? (s ++ t) = some (c, n) := by
  rw [braced?] at h ⊢
  split_ifs at h with closed
  have same : (s ++ t).takeWhile (!·.is '\x7d') = s.takeWhile (!·.is '\x7d') := by
    rw [List.takeWhile_append, if_neg (Nat.ne_of_lt closed.2)]
  have still : (s.takeWhile (!·.is '\x7d')).length < (s ++ t).length := by
    rw [List.length_append]
    omega
  rw [same, if_pos ⟨closed.1, still⟩, h]

theorem readEscape_append (h : readEscape s = some (c, n)) (t : Text) :
    readEscape (s ++ t) = some (c, n) := by
  cases s with
  | nil => cases h
  | cons d s =>
    rw [List.cons_append, readEscape]
    rw [readEscape] at h
    cases hd : named? d with
    | some e =>
      rw [hd] at h
      exact h
    | none =>
      rw [hd] at h
      dsimp only at h ⊢
      split_ifs at h with hex unicode brace
      · obtain ⟨e, he, same⟩ := Option.map_eq_some_iff.1 h
        rw [if_pos hex, fixed?_append he, Option.map_some, same]
      · obtain ⟨⟨e, m⟩, he, same⟩ := Option.map_eq_some_iff.1 h
        cases s with
        | nil => cases brace
        | cons b s =>
          rw [if_neg hex, if_pos unicode, if_pos (show (b :: s ++ t).head?.any _ = true from brace)]
          have more := braced?_append (show braced? s = some (e, m) from he) t
          show (braced? (s ++ t)).map _ = _
          rw [more, Option.map_some, same]
      · obtain ⟨e, he, same⟩ := Option.map_eq_some_iff.1 h
        cases s with
        | nil => cases he
        | cons b s =>
          rw [if_neg hex, if_pos unicode, if_neg (show ¬ (b :: s ++ t).head?.any _ = true from brace),
            fixed?_append he, Option.map_some, same]

/-- Inside a literal that comes to its end, more text behind it is not looked at. -/
theorem inside_append {skip : Nat} (h : inside skip s = some (value, rest)) (t : Text) :
    inside skip (s ++ t) = some (value, rest ++ t) := by
  induction s generalizing skip value with
  | nil => cases skip <;> cases h
  | cons c s ih =>
    cases skip with
    | succ skip => exact ih h
    | zero =>
      rw [List.cons_append, inside]
      rw [inside] at h
      split_ifs at h ⊢ with quote backslash interpolation begun
      · cases h
        rfl
      · obtain ⟨⟨d, n⟩, hd, h⟩ := Option.bind_eq_some_iff.1 h
        obtain ⟨⟨read, behind⟩, hread, same⟩ := Option.map_eq_some_iff.1 h
        cases same
        rw [readEscape_append hd, Option.bind_some]
        dsimp only
        rw [ih hread]
        rfl
      · -- what begins an interpolation stands in `s` itself, or the literal does not end there
        obtain ⟨_, hread, -⟩ := Option.map_eq_some_iff.1 h
        cases s with
        | nil => cases hread
        | cons b s => exact absurd interpolation begun
      · obtain ⟨⟨read, behind⟩, hread, same⟩ := Option.map_eq_some_iff.1 h
        cases same
        rw [ih hread]
        rfl

/-- **More text** behind a literal is left unread, too. -/
theorem readQuoted_append (h : readQuoted s = some (value, rest)) (t : Text) :
    readQuoted (s ++ t) = some (value, rest ++ t) := by
  cases s with
  | nil => cases h
  | cons c s =>
    rw [readQuoted] at h
    rw [List.cons_append, readQuoted]
    split_ifs at h ⊢ with quote
    exact inside_append h t

end More

/-! ## Both ways to write a literal -/

/-- **Literals are read back.**  Take a text that can be encoded, and write it in either of the two ways.
    Whatever stands behind the literal, the reader gives the text and leaves what stands behind it.  Other
    texts have other literals, and no literal is the beginning of the literal of another text.  Nor is a
    literal closed before its end: a piece of it, cut off anywhere, is no literal at all.  And there is
    no interpolation in it: behind any text, the reader would have refused one. -/
theorem readQuoted_literal {value : Text} (encodable : value.isEncodable = true) :
    ∀ literal ∈ [dump, inspect],
      (∀ rest, readQuoted (literal value ++ rest) = some (value, rest))
      ∧ (∀ other, other.isEncodable = true → literal other = literal value → other = value)
      ∧ (∀ other, other.isEncodable = true → literal other <+: literal value → other = value)
      ∧ (∀ piece, piece <+: literal value → piece ≠ literal value → readQuoted piece = none)
      ∧ ∀ d rest, opensInterpolation d = true →
        readQuoted ((literal value).dropLast ++ CodePoint.ofChar '#' :: d :: rest) = none := by
  intro literal either
  obtain ⟨keep, rfl⟩ : ∃ keep, literal = quoted keep := by
    rcases List.mem_pair.1 either with rfl | rfl
    · exact ⟨_, rfl⟩
    · exact ⟨_, rfl⟩
  have read := readQuoted_quoted keep encodable
  have alone : readQuoted (quoted keep value) = some (value, []) := by
    rw [← read [], List.append_nil]
  have start : ∀ other, other.isEncodable = true → quoted keep other <+: quoted keep value →
      other = value := by
    rintro other encodable ⟨behind, same⟩
    rw [← same, readQuoted_quoted keep encodable] at alone
    exact congrArg Prod.fst (Option.some.inj alone)
  have piece : ∀ piece, piece <+: quoted keep value → piece ≠ quoted keep value →
      readQuoted piece = none := by
    rintro piece ⟨behind, same⟩ shorter
    refine Option.eq_none_iff_forall_ne_some.2 fun ⟨v, r⟩ h => shorter ?_
    rw [← same, readQuoted_append h] at alone
    have none_left : r ++ behind = [] := congrArg Prod.snd (Option.some.inj alone)
    rw [← same, (List.append_eq_nil_iff.1 none_left).2, List.append_nil]
  exact ⟨read, fun other encodable same => start other encodable (same ▸ List.prefix_rfl), start, piece,
    fun d rest opens => readQuoted_interpolation keep encodable opens rest⟩

/-- Half of a surrogate pair is written, but it is not read back. -/
example : readQuoted (dump [⟨0xD800, by decide⟩]) = none := by decide

/-- Marks in front of marks, digits behind escapes of numbers, and the ends of all ranges of numbers. -/
def mixedText : Text := "\"\\\\n#\x7b##$#\"\x01F\x7f\u0080é1\uffff1𐀀\x7d#"

theorem readQuoted_literal_mixedText :
    mixedText.isEncodable = true
    ∧ readQuoted (dump mixedText ++ "\x7b\"") = some (mixedText, ("\x7b\"" : Text))
    ∧ readQuoted (inspect mixedText ++ "\x7b\"") = some (mixedText, ("\x7b\"" : Text))
    ∧ dump "\"" ≠ dump mixedText ∧ ¬ dump "\"" <+: dump mixedText
    ∧ readQuoted (dump mixedText).dropLast = none
    ∧ readQuoted ((dump mixedText).dropLast ++ ("#$0\"" : Text)) = none := by
  have encodable : mixedText.isEncodable = true := by decide
  have dumped := readQuoted_literal encodable dump List.mem_cons_self
  have inspected := readQuoted_literal encodable inspect (List.mem_cons_of_mem _ List.mem_cons_self)
  obtain ⟨read, other, start, piece, opened⟩ := dumped
  have differ : ("\"" : Text) ≠ mixedText := by decide
  exact ⟨encodable, read _, inspected.1 _, fun same => differ (other _ (by decide) same),
    fun begins => differ (start _ (by decide) begins),
    piece _ (List.dropLast_prefix _) (by decide), opened (CodePoint.ofChar '$') ("0\"" : Text) rfl⟩

end Ruby

end NegationLint
