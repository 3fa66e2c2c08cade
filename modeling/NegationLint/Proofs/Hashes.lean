/-
  Hashes that can be read in one way only.

  The correction of a list of values is a hash from each value to its index.  It stands for the list as long
  as the values can be got back from it, and the values can be anything: the comma, the arrow and the
  braces around them may be part of a value as well.

  1. `readKey_literal` — ONE KEY.  A space tells where it ends: a bare symbol has none in it, and a quoted
     key is closed by its own quote, whatever stands behind it;
  2. `Entry.IsProper.unique` — ONE ENTRY.  Behind the arrow there are digits up to something that is no digit;
  3. `eq_of_behind_eq` — THE CRUX.  What stands behind an entry is a comma or the closing brace, and both
     stop the digits.  So entry after entry is the same in two ways to read one text, by induction on the
     entries of either;
  4. `indexedHash_eq` — what the rule writes for an array of symbols and strings is such a hash, and its
     entries are the elements in order, with their indices.
-/
import NegationLint.EnumRule
import NegationLint.Proofs.Symbols
import NegationLint.Ruby.Hash

namespace NegationLint

namespace Ruby

/-! ## One key -/

section Keys

variable {k k' : Key} {l l' t t' : Text}

/-- A key is found if a space stands behind it. -/
theorem readKey_literal (h : Literal k l) (rest : Text) :
    readKey (l ++ CodePoint.ofChar ' ' :: rest) = some (k, CodePoint.ofChar ' ' :: rest) := by
  cases h with
  | string read =>
    obtain ⟨s, rfl⟩ := exists_cons_of_readQuoted read
    show (readQuoted (CodePoint.ofChar '"' :: s ++ _)).map _ = _
    rw [readQuoted_append read]
    rfl
  | quotedSymbol read =>
    show (readSymbol (CodePoint.ofChar ':' :: (_ ++ _))).map _ = _
    rw [readSymbol_quoted read]
    rfl
  | bareSymbol closed unquoted =>
    show (readSymbol (CodePoint.ofChar ':' :: (_ ++ _))).map _ = _
    rw [readSymbol_bare closed unquoted]
    rfl

/-- So there is one key, and one literal of it, at the beginning of a text. -/
theorem Literal.unique (h : Literal k l) (h' : Literal k' l')
    (same : l ++ CodePoint.ofChar ' ' :: t = l' ++ CodePoint.ofChar ' ' :: t') :
    k = k' ∧ l = l' ∧ t = t' := by
  have read := readKey_literal h t
  rw [same, readKey_literal h' t'] at read
  injection read with read
  injection read with keys rests
  injection rests with _ rests
  subst keys rests
  exact ⟨rfl, List.append_cancel_right same, rfl⟩

end Keys

/-! ## One entry -/

section Entries

variable {e e' : Entry} {s t t' : Text}

theorem Entry.text_append (e : Entry) (t : Text) :
    e.text ++ t = e.literal ++ CodePoint.ofChar ' ' :: (("=> " : Text) ++ (e.digits ++ t)) := by
  rw [Entry.text, List.append_assoc, List.append_assoc]
  rfl

/-- So there is one entry at the beginning of a text, if no digit stands behind it. -/
theorem Entry.IsProper.unique (h : e.IsProper) (h' : e'.IsProper)
    (stop : t.head?.any CodePoint.isDecimal = false) (stop' : t'.head?.any CodePoint.isDecimal = false)
    (same : e.text ++ t = e'.text ++ t') : e = e' ∧ t = t' := by
  rw [Entry.text_append, Entry.text_append] at same
  obtain ⟨keys, literals, rests⟩ := h.literal.unique h'.literal same
  rw [List.append_cancel_left_eq] at rests
  have digits : e.digits = e'.digits := by
    rw [← Text.takeWhile_digits h.digits.2 stop, rests, Text.takeWhile_digits h'.digits.2 stop']
  rw [digits, List.append_cancel_left_eq] at rests
  refine ⟨?_, rests⟩
  cases e
  cases e'
  cases keys
  cases literals
  cases digits
  rfl

end Entries

/-! ## All entries -/

section Hashes

variable {e : Entry} {es es' : List Entry} {t : Text}

/-- What stands behind an entry, if these are the ones that follow. -/
def behind (es : List Entry) : Text :=
  es.flatMap (fun e => (", " : Text) ++ e.text) ++ [CodePoint.ofChar '\x7d']

theorem behind_cons (e : Entry) (es : List Entry) :
    behind (e :: es) = (", " : Text) ++ (e.text ++ behind es) := by
  rw [behind, List.flatMap_cons, List.append_assoc, List.append_assoc, ← behind]

theorem hashOf_cons (e : Entry) (es : List Entry) :
    hashOf (e :: es) = CodePoint.ofChar '\x7b' :: (e.text ++ behind es) := by
  have joined : List.intercalate (", " : Text) ((e :: es).map Entry.text)
      = e.text ++ es.flatMap fun e => (", " : Text) ++ e.text := by
    induction es generalizing e with
    | nil => exact List.intercalate_singleton.trans (List.append_nil e.text).symm
    | cons f es ih =>
      rw [List.map_cons, List.map_cons, List.intercalate_cons_cons, ← List.map_cons, ih, List.flatMap_cons,
        List.append_assoc, List.append_assoc]
  rw [hashOf, joined, List.append_assoc, ← behind]

/-- No digit stands behind an entry. -/
theorem behind_stops (es : List Entry) : (behind es).head?.any CodePoint.isDecimal = false := by
  cases es <;> rfl

theorem eq_of_behind_eq (proper : ∀ e ∈ es, e.IsProper) (proper' : ∀ e ∈ es', e.IsProper)
    (same : behind es = behind es') : es = es' := by
  have differ : some (CodePoint.ofChar '\x7d') ≠ some (CodePoint.ofChar ',') := by decide
  induction es generalizing es' with
  | nil =>
    cases es' with
    | nil => rfl
    | cons e' es' => exact absurd (congrArg List.head? same) differ
  | cons e es ih =>
    cases es' with
    | nil => exact absurd (congrArg List.head? same) differ.symm
    | cons e' es' =>
      obtain ⟨here, rest⟩ := List.forall_mem_cons.1 proper
      obtain ⟨here', rest'⟩ := List.forall_mem_cons.1 proper'
      rw [behind_cons, behind_cons, List.append_cancel_left_eq] at same
      obtain ⟨rfl, follows⟩ := here.unique here' (behind_stops es) (behind_stops es') same
      rw [ih rest rest' follows]

/-- An entry has at least its arrow. -/
theorem hashOf_cons_ne_nil (e : Entry) (es : List Entry) : hashOf (e :: es) ≠ hashOf [] := by
  intro same
  have lengths := congrArg List.length same
  have arrow : (" => " : Text).length = 4 := rfl
  have empty : (hashOf []).length = 2 := rfl
  rw [hashOf_cons, Entry.text, List.length_cons, List.length_append, List.length_append,
    List.length_append] at lengths
  omega

/-- **A text is a hash in one way at most.** -/
theorem IsReading.unique (h : IsReading t es) (h' : IsReading t es') : es = es' := by
  have same : hashOf es = hashOf es' := h.text.trans h'.text.symm
  cases es with
  | nil =>
    cases es' with
    | nil => rfl
    | cons e' es' => exact absurd same.symm (hashOf_cons_ne_nil e' es')
  | cons e es =>
    cases es' with
    | nil => exact absurd same (hashOf_cons_ne_nil e es)
    | cons e' es' =>
      -- a comma before both makes them what stands behind an entry
      rw [hashOf_cons, hashOf_cons, List.cons.injEq] at same
      refine eq_of_behind_eq h.proper h'.proper ?_
      rw [behind_cons, behind_cons, same.2]

end Hashes

/-! ## Keys as they are written -/

/-- A string in pure ASCII, a symbol bare if that can be. -/
def Key.written : Key → Text
  | .string value => dump value
  | .symbol name => inspectSymbol name

theorem literal_written {k : Key} (encodable : k.text.isEncodable = true) : Literal k k.written := by
  have alone (keep : CodePoint → Bool) {value : Text} (h : value.isEncodable = true) :
      readQuoted (quoted keep value) = some (value, []) := by
    rw [← List.append_nil (quoted keep value)]
    exact readQuoted_quoted keep h []
  cases k with
  | string value => exact .string (alone _ encodable)
  | symbol name =>
    show Literal (.symbol name) (inspectSymbol name)
    by_cases bare : Bare name
    · rw [inspectSymbol_of_bare bare]
      exact .bareSymbol bare.closed bare.begins.2
    · rw [inspectSymbol_of_not_bare bare]
      exact .quotedSymbol (alone _ encodable)

/-- The entries of these keys, with the numbers from `first` on. -/
def indexed (first : Nat) (keys : List Key) : List Entry :=
  (keys.zipIdx first).map fun (k, i) => ⟨k, k.written, Text.ofNat i⟩

section Indexed

variable (first : Nat) (keys : List Key)

theorem indexed_cons (k : Key) :
    indexed first (k :: keys) = ⟨k, k.written, Text.ofNat first⟩ :: indexed (first + 1) keys := by
  rw [indexed, List.zipIdx_cons, List.map_cons, ← indexed]

theorem map_key_indexed : (indexed first keys).map Entry.key = keys := by
  rw [indexed, List.map_map]
  exact List.zipIdx_map_fst first keys

theorem map_index_indexed : (indexed first keys).map Entry.index = List.range' first keys.length := by
  have numbers : (fun (k, i) => Entry.index ⟨k, k.written, Text.ofNat i⟩) = Prod.snd := by
    funext ⟨k, i⟩
    exact Text.decimalValue_ofNat i
  rw [indexed, List.map_map, ← List.zipIdx_map_snd first keys, ← numbers]
  rfl

theorem proper_indexed (encodable : ∀ k ∈ keys, k.text.isEncodable = true) :
    ∀ e ∈ indexed first keys, e.IsProper := by
  intro e he
  obtain ⟨⟨k, i⟩, hk, rfl⟩ := List.mem_map.1 he
  have key : k ∈ keys := List.fst_mem_of_mem_zipIdx hk
  exact ⟨literal_written (encodable k key), Text.ofNat_ne_nil i, fun c hc => Text.isDecimal_of_mem_ofNat hc⟩

end Indexed

end Ruby

/-! ## Arrays of symbols and strings -/

/-- The key that an array element becomes, if it is a symbol or a string. -/
def Node.key? : Node → Option Ruby.Key
  | .str _ value => some (.string value)
  | .sym _ value => some (.symbol value)
  | _ => none

namespace EnumRule

theorem renderElement_of_key? {n : Node} {k : Ruby.Key} (h : n.key? = some k) :
    renderElement n = k.written := by
  cases n <;> cases h <;> rfl

theorem renderEntries_eq {elements : List Node} {keys : List Ruby.Key}
    (plain : elements.map Node.key? = keys.map some) (first : Nat) :
    renderEntries first elements
      = List.intercalate (", " : Text) ((Ruby.indexed first keys).map Ruby.Entry.text) := by
  induction elements generalizing keys first with
  | nil =>
    obtain rfl := List.map_eq_nil_iff.1 plain.symm
    rfl
  | cons n ns ih =>
    cases keys with
    | nil => cases plain
    | cons k ks =>
      injection plain with here rest
      rw [Ruby.indexed_cons, List.map_cons]
      cases ns with
      | nil =>
        obtain rfl := List.map_eq_nil_iff.1 rest.symm
        rw [renderEntries, renderElement_of_key? here]
        exact List.intercalate_singleton.symm
      | cons m ns =>
        cases ks with
        | nil => cases rest
        | cons l ks =>
          have entry (t : Text) : Ruby.Entry.text ⟨k, k.written, Text.ofNat first⟩ ++ t
              = k.written ++ ((" => " : Text) ++ (Text.ofNat first ++ t)) := by
            rw [Ruby.Entry.text, List.append_assoc, List.append_assoc]
          rw [renderEntries_cons_cons, renderElement_of_key? here, ih rest, Ruby.indexed_cons, List.map_cons,
            List.intercalate_cons_cons, List.append_assoc, entry]

/-- **What the rule writes** for symbols and strings is the hash of their keys with their indices. -/
theorem indexedHash_eq {elements : List Node} {keys : List Ruby.Key}
    (plain : elements.map Node.key? = keys.map some) :
    indexedHash elements = Ruby.hashOf (Ruby.indexed 0 keys) := by
  rw [indexedHash, renderEntries_eq plain, Ruby.hashOf]

/-- **Nothing of a list is lost.**  Take an array of symbols and strings that can be encoded.  The hash that
    replaces it can be read in one way and no other.  This gives the elements in order, symbols as
    symbols and strings as strings, and with them the numbers from zero on.  So two such arrays become
    the same hash exactly if they have the same symbols and strings in the same order. -/
theorem reading_indexedHash {elements : List Node} {keys : List Ruby.Key}
    (plain : elements.map Node.key? = keys.map some)
    (encodable : ∀ k ∈ keys, k.text.isEncodable = true) :
    (∃! entries, Ruby.IsReading (indexedHash elements) entries)
    ∧ (∀ entries, Ruby.IsReading (indexedHash elements) entries →
      entries.map Ruby.Entry.key = keys ∧ entries.map Ruby.Entry.index = List.range elements.length)
    ∧ ∀ (others : List Node) (keys' : List Ruby.Key), others.map Node.key? = keys'.map some →
      (∀ k ∈ keys', k.text.isEncodable = true) →
      (indexedHash others = indexedHash elements ↔ keys' = keys) := by
  have reading {ns : List Node} {ks : List Ruby.Key} (plain : ns.map Node.key? = ks.map some)
      (encodable : ∀ k ∈ ks, k.text.isEncodable = true) :
      Ruby.IsReading (indexedHash ns) (Ruby.indexed 0 ks) :=
    ⟨Ruby.proper_indexed 0 ks encodable, (indexedHash_eq plain).symm⟩
  have count : elements.length = keys.length := by
    rw [← List.length_map Node.key?, plain, List.length_map]
  refine ⟨⟨_, reading plain encodable, fun entries h => h.unique (reading plain encodable)⟩, ?_, ?_⟩
  · intro entries h
    rw [h.unique (reading plain encodable), Ruby.map_key_indexed, Ruby.map_index_indexed, count,
      List.range_eq_range']
    exact ⟨rfl, rfl⟩
  · intro others keys' plain' encodable'
    constructor
    · intro same
      have entries : Ruby.indexed 0 keys' = Ruby.indexed 0 keys :=
        (same ▸ reading plain' encodable').unique (reading plain encodable)
      rw [← Ruby.map_key_indexed 0 keys', entries, Ruby.map_key_indexed]
    · rintro rfl
      rw [indexedHash_eq plain', indexedHash_eq plain]

/-- Separators in a bare symbol, in a string and in a quoted symbol. -/
def separatorKeys : List Ruby.Key := [.symbol "$,", .string "a\" => 0, :b", .symbol "\x7d => 1"]

/-- A list of these, found anywhere. -/
def separators (s : Site) : List Node := [.sym s "$,", .str s "a\" => 0, :b", .sym s "\x7d => 1"]

theorem reading_indexedHash_separators :
    let elements := separators ⟨⟨0, 0, 1, 0⟩, []⟩
    elements.map Node.key? = separatorKeys.map some
    ∧ (∀ k ∈ separatorKeys, k.text.isEncodable = true)
    ∧ indexedHash elements
      = ("\x7b:$, => 0, \"a\\\" => 0, :b\" => 1, :\"\x7d => 1\" => 2\x7d" : Text)
    ∧ (∃! entries, Ruby.IsReading (indexedHash elements) entries)
    ∧ (∀ entries, Ruby.IsReading (indexedHash elements) entries →
      entries.map Ruby.Entry.key = separatorKeys ∧ entries.map Ruby.Entry.index = [0, 1, 2])
    ∧ indexedHash elements.reverse ≠ indexedHash elements := by
  intro elements
  have plain : elements.map Node.key? = separatorKeys.map some := rfl
  have backward : elements.reverse.map Node.key? = separatorKeys.reverse.map some := rfl
  have encodable : ∀ k ∈ separatorKeys, k.text.isEncodable = true := by decide
  obtain ⟨one, entries, same⟩ := reading_indexedHash plain encodable
  refine ⟨plain, encodable, by decide, one, entries, ?_⟩
  intro turned
  exact absurd ((same _ _ backward (by decide)).1 turned) (by decide)

end EnumRule

end NegationLint
