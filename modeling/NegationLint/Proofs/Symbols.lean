/-
  Symbols read back, and what they are made of.

  A symbol is a colon and its name, if Ruby reads the name back from there, and a colon and a double-quoted
  literal if not.  Nothing says where a bare name ends, and no mark tells the two apart, but for the name
  itself:

  1. `Bare` — THE FORMS of a name that is written bare, one constructor for each.  `bare_iff`: the test
     that decides between bare and quoted knows these forms and no others;
  2. `Bare.solid`, `Bare.begins` — none of them has a space or a control character in it, and none begins
     with a quote.  So a bare symbol ends at the first space, and is not taken for a quoted one;
  3. `readSymbol_inspectSymbol` — one reader gets the name back from both;
  4. `Bare.high_of_not_isPrintable` — what the forms do let through is code points above ASCII that are not
     printable.  A bare symbol has them as they are, while between quotes they are escaped.
-/
import NegationLint.Proofs.Alphabet
import NegationLint.Ruby.Symbol

namespace NegationLint

/-- Neither the space nor a control character of ASCII. -/
def CodePoint.isSolid (c : CodePoint) : Bool := 0x20 < c.val && c.val != 0x7F

theorem CodePoint.isSolid_iff {c : CodePoint} : c.isSolid = true ↔ 0x20 < c.val ∧ c.val ≠ 0x7F := by
  rw [isSolid, Bool.and_eq_true, decide_eq_true_eq, bne_iff_ne]

theorem CodePoint.within_iff {c : CodePoint} {lo hi : Char} :
    c.within lo hi = true ↔ lo.toNat ≤ c.val ∧ c.val ≤ hi.toNat := by
  rw [within, Bool.and_eq_true, decide_eq_true_eq, decide_eq_true_eq]

namespace Ruby

/-! ## Names -/

section Names

variable {c : CodePoint} {t : Text}

theorem solid_of_within {lo hi : Char} (low : 0x20 < lo.toNat) (high : hi.toNat < 0x7F)
    (h : c.within lo hi = true) : c.isSolid = true := by
  have := CodePoint.within_iff.1 h
  exact CodePoint.isSolid_iff.2 ⟨by omega, by omega⟩

theorem solid_of_is {x : Char} (ascii : (CodePoint.ofChar x).isSolid = true) (h : c.is x = true) :
    c.isSolid = true := by
  rw [CodePoint.is_iff.1 h]
  exact ascii

theorem solid_of_isNameStart (h : isNameStart c = true) : c.isSolid = true := by
  simp only [isNameStart, Bool.or_eq_true, decide_eq_true_eq] at h
  rcases h with ((upper | lower) | underscore) | high
  · exact solid_of_within (by decide) (by decide) upper
  · exact solid_of_within (by decide) (by decide) lower
  · exact solid_of_is (by decide) underscore
  · exact CodePoint.isSolid_iff.2 ⟨by omega, by omega⟩

theorem solid_of_isDecimal (h : c.isDecimal = true) : c.isSolid = true :=
  solid_of_within (by decide) (by decide) h

theorem solid_of_isNameChar (h : isNameChar c = true) : c.isSolid = true := by
  rcases Bool.or_eq_true_iff.1 h with start | digit
  · exact solid_of_isNameStart start
  · exact solid_of_isDecimal digit

/-- No name begins with a quote. -/
theorem is_quote_of_isNameStart (h : isNameStart c = true) : c.is '"' = false := by
  rw [← Bool.not_eq_true]
  intro quote
  rw [CodePoint.is_iff.1 quote] at h
  exact absurd h (by decide)

theorem exists_cons_of_isName (h : isName t = true) :
    ∃ c rest, t = c :: rest ∧ isNameStart c = true ∧ ∀ d ∈ rest, isNameChar d = true := by
  cases t with
  | nil => cases h
  | cons c rest =>
    obtain ⟨start, inside⟩ := Bool.and_eq_true_iff.1 h
    exact ⟨c, rest, rfl, start, List.all_eq_true.1 inside⟩

theorem solid_of_isName (h : isName t = true) : ∀ c ∈ t, c.isSolid = true := by
  obtain ⟨c, rest, rfl, start, inside⟩ := exists_cons_of_isName h
  exact List.forall_mem_cons.2 ⟨solid_of_isNameStart start, fun d hd => solid_of_isNameChar (inside d hd)⟩

end Names

/-! ## The forms of a bare symbol -/

/-- The marks of which one may stand behind the name of a method. -/
def marks : Text := "?!="

/-- What stands before the name of a variable that is neither local nor global. -/
def sigils : List Text := ["@", "@@"]

/-- The forms of a symbol that is written bare, without its colon. -/
inductive Bare : Text → Prop
  /-- an operator that can be a method -/
  | operator {t : Text} (known : t ∈ operators) : Bare t
  /-- a method, a local variable or a constant -/
  | name {t : Text} (named : isName t = true) : Bare t
  | markedName {t : Text} {c : CodePoint} (named : isName t = true) (mark : c ∈ marks) : Bare (t ++ [c])
  /-- an instance or class variable -/
  | variableName {sigil t : Text} (one : sigil ∈ sigils) (named : isName t = true) : Bare (sigil ++ t)
  /-- a global variable -/
  | globalName {t : Text} (named : isName t = true) : Bare (CodePoint.ofChar '$' :: t)
  /-- a special global variable -/
  | special {c : CodePoint} (one : c ∈ specialGlobals) : Bare [CodePoint.ofChar '$', c]
  /-- a group of the last match -/
  | group {c : CodePoint} {rest : Text} (first : c.within '1' '9' = true)
      (digits : ∀ d ∈ rest, d.isDecimal = true) : Bare (CodePoint.ofChar '$' :: c :: rest)
  /-- an option of the command line -/
  | option {d : CodePoint} (one : isNameChar d = true) (ascii : d.val < 0x80) :
      Bare [CodePoint.ofChar '$', CodePoint.ofChar '-', d]

section Forms

variable {t : Text}

theorem isMethodName_iff :
    isMethodName t = true
      ↔ isName t = true ∨ ∃ name c, isName name = true ∧ c ∈ marks ∧ t = name ++ [c] := by
  have mem_marks (c : CodePoint) : (c.is '?' || c.is '!' || c.is '=') = true ↔ c ∈ marks := by
    have spelled : marks = [CodePoint.ofChar '?', CodePoint.ofChar '!', CodePoint.ofChar '='] := rfl
    simp only [Bool.or_eq_true, CodePoint.is_iff, spelled, List.mem_cons, List.not_mem_nil, or_false, or_assoc]
  rw [isMethodName, Bool.or_eq_true]
  refine or_congr_right ?_
  cases t using List.reverseRecOn with
  | nil => exact ⟨fun h => (nomatch h), fun ⟨_, _, _, _, same⟩ => absurd same (by simp)⟩
  | append_singleton name c =>
    rw [List.getLast?_concat, List.dropLast_concat]
    show ((c.is '?' || c.is '!' || c.is '=') && isName name) = true ↔ _
    rw [Bool.and_eq_true, mem_marks]
    constructor
    · rintro ⟨mark, named⟩
      exact ⟨name, c, named, mark, rfl⟩
    · rintro ⟨name', c', named, mark, same⟩
      obtain ⟨rfl, rfl⟩ := List.append_singleton_inj.1 same
      exact ⟨mark, named⟩

theorem isGlobalName_iff :
    isGlobalName t = true ↔ isName t = true ∨ (∃ c ∈ specialGlobals, t = [c])
      ∨ (∃ c rest, c.within '1' '9' = true ∧ (∀ d ∈ rest, d.isDecimal = true) ∧ t = c :: rest)
      ∨ ∃ d, isNameChar d = true ∧ d.val < 0x80 ∧ t = [CodePoint.ofChar '-', d] := by
  unfold isGlobalName
  rw [Bool.or_eq_true]
  refine or_congr_right ?_
  rcases t with _ | ⟨c, _ | ⟨d, _ | ⟨e, rest⟩⟩⟩
  · simp
  · simp
  · simp [CodePoint.is_iff]
    tauto
  · simp

theorem isBareSymbol_iff :
    isBareSymbol t = true ↔ t ∈ operators ∨ isMethodName t = true
      ∨ (∃ sigil name, sigil ∈ sigils ∧ isName name = true ∧ t = sigil ++ name)
      ∨ ∃ name, isGlobalName name = true ∧ t = CodePoint.ofChar '$' :: name := by
  have spelled : sigils = [[CodePoint.ofChar '@'], [CodePoint.ofChar '@', CodePoint.ofChar '@']] := rfl
  unfold isBareSymbol
  rw [Bool.or_eq_true, Bool.or_eq_true, List.contains_iff_mem, or_assoc, spelled]
  refine or_congr_right (or_congr_right ?_)
  rcases t with _ | ⟨c, _ | ⟨d, rest⟩⟩
  · simp
  · simp [CodePoint.is_iff, isName]
    tauto
  · simp [CodePoint.is_iff]
    tauto

/-- **The test knows the forms** of a bare symbol and no others. -/
theorem bare_iff : isBareSymbol t = true ↔ Bare t := by
  constructor
  · intro h
    rw [isBareSymbol_iff, isMethodName_iff] at h
    rcases h with known | (named | ⟨name, c, named, mark, rfl⟩) | ⟨sigil, name, one, named, rfl⟩
      | ⟨name, global, rfl⟩
    · exact .operator known
    · exact .name named
    · exact .markedName named mark
    · exact .variableName one named
    · rcases isGlobalName_iff.1 global with named | ⟨c, one, rfl⟩ | ⟨c, rest, first, digits, rfl⟩
        | ⟨d, one, ascii, rfl⟩
      · exact .globalName named
      · exact .special one
      · exact .group first digits
      · exact .option one ascii
  · intro h
    have global {name : Text} (h : isGlobalName name = true) :
        isBareSymbol (CodePoint.ofChar '$' :: name) = true :=
      isBareSymbol_iff.2 (Or.inr (Or.inr (Or.inr ⟨name, h, rfl⟩)))
    cases h with
    | operator known => exact isBareSymbol_iff.2 (Or.inl known)
    | name named => exact isBareSymbol_iff.2 (Or.inr (Or.inl (isMethodName_iff.2 (Or.inl named))))
    | markedName named mark =>
      exact isBareSymbol_iff.2 (Or.inr (Or.inl (isMethodName_iff.2 (Or.inr ⟨_, _, named, mark, rfl⟩))))
    | variableName one named =>
      exact isBareSymbol_iff.2 (Or.inr (Or.inr (Or.inl ⟨_, _, one, named, rfl⟩)))
    | globalName named => exact global (isGlobalName_iff.2 (Or.inl named))
    | special one => exact global (isGlobalName_iff.2 (Or.inr (Or.inl ⟨_, one, rfl⟩)))
    | group first digits =>
      exact global (isGlobalName_iff.2 (Or.inr (Or.inr (Or.inl ⟨_, _, first, digits, rfl⟩))))
    | option one ascii =>
      exact global (isGlobalName_iff.2 (Or.inr (Or.inr (Or.inr ⟨_, one, ascii, rfl⟩))))

/-- There is neither a space nor a control character in a bare symbol. -/
theorem Bare.solid (h : Bare t) : ∀ c ∈ t, c.isSolid = true := by
  have operator : ∀ t ∈ operators, ∀ c ∈ t, c.isSolid = true := by decide
  have sigil : ∀ t ∈ sigils, ∀ c ∈ t, c.isSolid = true := by decide
  have mark : ∀ c ∈ marks, c.isSolid = true := by decide
  have special : ∀ c ∈ specialGlobals, c.isSolid = true := by decide
  have dollar : (CodePoint.ofChar '$').isSolid = true := by decide
  cases h with
  | operator known => exact operator t known
  | name named => exact solid_of_isName named
  | markedName named one =>
    exact List.forall_mem_append.2 ⟨solid_of_isName named, List.forall_mem_singleton.2 (mark _ one)⟩
  | variableName one named => exact List.forall_mem_append.2 ⟨sigil _ one, solid_of_isName named⟩
  | globalName named => exact List.forall_mem_cons.2 ⟨dollar, solid_of_isName named⟩
  | special one => exact List.forall_mem_cons.2 ⟨dollar, List.forall_mem_singleton.2 (special _ one)⟩
  | group first digits =>
    refine List.forall_mem_cons.2 ⟨dollar, List.forall_mem_cons.2 ⟨?_, ?_⟩⟩
    · exact solid_of_within (by decide) (by decide) first
    · exact fun d hd => solid_of_isDecimal (digits d hd)
  | option one ascii =>
    refine List.forall_mem_cons.2 ⟨dollar, List.forall_mem_cons.2 ⟨by decide, ?_⟩⟩
    exact List.forall_mem_singleton.2 (solid_of_isNameChar one)

theorem Bare.closed (h : Bare t) : ∀ c ∈ t, c.is ' ' = false := by
  intro c hc
  rw [← Bool.not_eq_true]
  intro space
  have solid := h.solid c hc
  rw [CodePoint.is_iff.1 space] at solid
  exact absurd solid (by decide)

/-- A bare symbol has a first code point, and that is no quote. -/
theorem Bare.begins (h : Bare t) : t ≠ [] ∧ t.head?.any (·.is '"') = false := by
  have operator : ∀ t ∈ operators, t ≠ [] ∧ t.head?.any (·.is '"') = false := by decide
  have named {name : Text} (h : isName name = true) (behind : Text) :
      name ++ behind ≠ [] ∧ (name ++ behind).head?.any (·.is '"') = false := by
    obtain ⟨c, rest, rfl, start, -⟩ := exists_cons_of_isName h
    exact ⟨List.cons_ne_nil c _, is_quote_of_isNameStart start⟩
  cases h with
  | operator known => exact operator t known
  | name h => exact List.append_nil t ▸ named h []
  | markedName h => exact named h _
  | @variableName sigil name one _ =>
    have held : ∀ sigil ∈ sigils, sigil ≠ [] ∧ sigil.head?.any (·.is '"') = false := by decide
    obtain ⟨filled, unquoted⟩ := held sigil one
    refine ⟨List.append_ne_nil_of_left_ne_nil filled name, ?_⟩
    rw [List.head?_append_of_ne_nil sigil filled]
    exact unquoted
  | globalName => exact ⟨List.cons_ne_nil _ _, rfl⟩
  | special => exact ⟨List.cons_ne_nil _ _, rfl⟩
  | group => exact ⟨List.cons_ne_nil _ _, rfl⟩
  | option => exact ⟨List.cons_ne_nil _ _, rfl⟩

end Forms

/-! ## Symbols read back -/

section Read

variable {value : Text}

theorem inspectSymbol_of_bare (h : Bare value) : inspectSymbol value = CodePoint.ofChar ':' :: value := by
  rw [inspectSymbol, if_pos (bare_iff.2 h)]

theorem inspectSymbol_of_not_bare (h : ¬ Bare value) :
    inspectSymbol value = CodePoint.ofChar ':' :: inspect value := by
  rw [inspectSymbol, if_neg (mt bare_iff.1 h)]

/-- What is read between quotes begins with one. -/
theorem exists_cons_of_readQuoted {t : Text} {read : Text × Text} (h : readQuoted t = some read) :
    ∃ s, t = CodePoint.ofChar '"' :: s := by
  cases t with
  | nil => cases h
  | cons c s =>
    rw [readQuoted] at h
    split at h
    · rename_i quote
      exact ⟨s, by rw [CodePoint.is_iff.1 quote]⟩
    · cases h

/-- A symbol with a literal behind its colon. -/
theorem readSymbol_quoted {literal : Text} (h : readQuoted literal = some (value, [])) (rest : Text) :
    readSymbol (CodePoint.ofChar ':' :: (literal ++ rest)) = some (value, rest) := by
  obtain ⟨s, rfl⟩ := exists_cons_of_readQuoted h
  exact readQuoted_append h rest

/-- A symbol with anything else behind its colon ends at the first space. -/
theorem readSymbol_bare (closed : ∀ c ∈ value, c.is ' ' = false)
    (unquoted : value.head?.any (·.is '"') = false) (rest : Text) :
    readSymbol (CodePoint.ofChar ':' :: (value ++ CodePoint.ofChar ' ' :: rest))
      = some (value, CodePoint.ofChar ' ' :: rest) := by
  have quote : ¬ (value ++ CodePoint.ofChar ' ' :: rest).head?.any (·.is '"') = true := by
    cases value with
    | nil => exact Bool.false_ne_true
    | cons c value => exact Bool.not_eq_true _ ▸ unquoted
  have inside : ∀ c ∈ value, (!c.is ' ') = true := fun c hc => by rw [closed c hc]; rfl
  show (if (value ++ CodePoint.ofChar ' ' :: rest).head?.any (·.is '"') = true then _
    else some (List.takeWhile _ _, List.dropWhile _ _)) = _
  rw [if_neg quote, List.takeWhile_append_of_pos inside, List.dropWhile_append_of_pos inside]
  show some (value ++ [], CodePoint.ofChar ' ' :: rest) = _
  rw [List.append_nil]

/-- **A symbol is read back**, whatever stands behind the space that ends it. -/
theorem readSymbol_inspectSymbol (encodable : value.isEncodable = true) (rest : Text) :
    readSymbol (inspectSymbol value ++ CodePoint.ofChar ' ' :: rest)
      = some (value, CodePoint.ofChar ' ' :: rest) := by
  by_cases bare : Bare value
  · rw [inspectSymbol_of_bare bare]
    exact readSymbol_bare bare.closed bare.begins.2 rest
  · have literal : readQuoted (inspect value) = some (value, []) := by
      rw [← List.append_nil (inspect value)]
      exact readQuoted_quoted _ encodable []
    rw [inspectSymbol_of_not_bare bare]
    exact readSymbol_quoted literal _

end Read

/-- **Symbols are read back.**  Take a text that can be encoded, and write the symbol of this name.  Whatever
    stands behind the next space, the reader gives the name and leaves the space.  So a symbol with a
    space behind it is the beginning of a text in one way only, and other names have other symbols.
    The symbol is quoted, or else the name stands behind the colon as it is; and then it is not empty,
    does not begin with a quote, and has neither a space nor a control character of ASCII in it. -/
theorem readSymbol_symbol {value : Text} (encodable : value.isEncodable = true) :
    (∀ rest, readSymbol (inspectSymbol value ++ CodePoint.ofChar ' ' :: rest)
      = some (value, CodePoint.ofChar ' ' :: rest))
    ∧ (∀ other rest rest', other.isEncodable = true →
      inspectSymbol other ++ CodePoint.ofChar ' ' :: rest'
        = inspectSymbol value ++ CodePoint.ofChar ' ' :: rest → other = value ∧ rest' = rest)
    ∧ (∀ other, other.isEncodable = true → inspectSymbol other = inspectSymbol value → other = value)
    ∧ (inspectSymbol value = CodePoint.ofChar ':' :: inspect value
      ∨ inspectSymbol value = CodePoint.ofChar ':' :: value
        ∧ value ≠ [] ∧ value.head? ≠ some (CodePoint.ofChar '"')
        ∧ ∀ c ∈ value, 0x20 < c.val ∧ c.val ≠ 0x7F) := by
  have begins : ∀ other rest rest', other.isEncodable = true →
      inspectSymbol other ++ CodePoint.ofChar ' ' :: rest'
        = inspectSymbol value ++ CodePoint.ofChar ' ' :: rest → other = value ∧ rest' = rest := by
    intro other rest rest' encodable' same
    have read := readSymbol_inspectSymbol encodable' rest'
    rw [same, readSymbol_inspectSymbol encodable rest] at read
    injection read with read
    injection read with values rests
    injection rests with _ rests
    exact ⟨values.symm, rests.symm⟩
  refine ⟨readSymbol_inspectSymbol encodable, begins, ?_, ?_⟩
  · intro other encodable' same
    exact (begins other [] [] encodable' (by rw [same])).1
  · by_cases bare : Bare value
    · right
      obtain ⟨filled, unquoted⟩ := bare.begins
      refine ⟨inspectSymbol_of_bare bare, filled, ?_, fun c hc => CodePoint.isSolid_iff.1 (bare.solid c hc)⟩
      intro quote
      rw [quote] at unquoted
      cases unquoted
    · exact Or.inl (inspectSymbol_of_not_bare bare)

/-- The name of a global variable that is a quote. -/
def quoteVariable : Text := "$\""

theorem readSymbol_symbol_quoteVariable :
    quoteVariable.isEncodable = true
    ∧ readSymbol (inspectSymbol quoteVariable ++ (" => 0" : Text)) = some (quoteVariable, (" => 0" : Text))
    ∧ inspectSymbol "$" ≠ inspectSymbol quoteVariable
    ∧ inspectSymbol "$" ++ (" " : Text) ≠ inspectSymbol quoteVariable ++ (" \"" : Text) := by
  have encodable : quoteVariable.isEncodable = true := by decide
  obtain ⟨read, begins, other, -⟩ := readSymbol_symbol encodable
  have differ : ("$" : Text) ≠ quoteVariable := by decide
  exact ⟨encodable, read ("=> 0" : Text), fun same => differ (other "$" (by decide) same),
    fun same => differ (begins "$" ("\"" : Text) [] (by decide) same).1⟩

/-! ## What symbols are made of -/

/-- In a bare symbol everything is printable up to U+007F. -/
theorem Bare.high_of_not_isPrintable {t : Text} (h : Bare t) {c : CodePoint} (hc : c ∈ t)
    (unprintable : c.isPrintable = false) : 0x7F < c.val := by
  by_contra ascii
  have solid := CodePoint.isSolid_iff.1 (h.solid c hc)
  have plain : c.isPlain = true := CodePoint.isPlain_iff.2 ⟨by omega, by omega⟩
  rw [CodePoint.isPrintable_of_isPlain plain] at unprintable
  cases unprintable

/-- **What is not printable in a symbol.**  In a quoted symbol everything is printable.  A bare symbol has
    what its name has, in order: code points above U+007F, and no others.  So a symbol is printable
    throughout exactly if its name is, or is written between quotes. -/
theorem unprintable_inspectSymbol (value : Text) :
    (¬ Bare value → ∀ c ∈ inspectSymbol value, c.isPrintable = true)
    ∧ (Bare value → (inspectSymbol value).filter (!·.isPrintable) = value.filter (!·.isPrintable)
      ∧ ∀ c ∈ value, c.isPrintable = false → 0x7F < c.val)
    ∧ ((∀ c ∈ inspectSymbol value, c.isPrintable = true)
      ↔ (Bare value → ∀ c ∈ value, c.isPrintable = true)) := by
  have colon : (CodePoint.ofChar ':').isPrintable = true := by decide
  have quoted (h : ¬ Bare value) : ∀ c ∈ inspectSymbol value, c.isPrintable = true := by
    rw [inspectSymbol_of_not_bare h]
    exact List.forall_mem_cons.2 ⟨colon, fun c hc => isPrintable_of_mem_inspect hc⟩
  refine ⟨quoted, fun bare => ⟨?_, fun c hc => bare.high_of_not_isPrintable hc⟩, ?_⟩
  · rw [inspectSymbol_of_bare bare]
    exact List.filter_cons_of_neg (by rw [colon]; exact Bool.false_ne_true)
  · by_cases bare : Bare value
    · rw [inspectSymbol_of_bare bare, List.forall_mem_cons]
      exact ⟨fun h _ => h.2, fun h => ⟨colon, h bare⟩⟩
    · exact ⟨fun _ h => absurd h bare, fun _ => quoted bare⟩

/-- A name that ends in the control U+0085, which ends a line. -/
def brokenName : Text := "é\u0085"

/-- Between quotes the control is escaped, but the symbol is written bare and has it as it is. -/
theorem raw_brokenName : inspect brokenName = ("\"é\\u0085\"" : Text)
    ∧ inspectSymbol brokenName = (":é\u0085" : Text)
    ∧ inspectSymbol brokenName ≠ (":\"é\\u0085\"" : Text)
    ∧ ¬ ∀ c ∈ inspectSymbol brokenName, c.isPrintable = true := by
  have quoted : inspect brokenName = ("\"é\\u0085\"" : Text) := by decide +kernel
  have bare : inspectSymbol brokenName = (":é\u0085" : Text) := by decide
  refine ⟨quoted, bare, ?_, ?_⟩
  · rw [bare]
    decide
  · rw [bare]
    decide +kernel

end Ruby

end NegationLint
