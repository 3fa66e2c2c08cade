/-
  What contracts say.

  `Schema.accepts` decides a value; here is one law for each kind of schema that says which values
  those are.  A published contract is then read off from its schema, property by property, and none
  of the proofs below it unfolds `accepts` again.

  * `accepts_record_iff` — an object with the required properties, each named property as its own
    schema wants it, and nothing else if the record is closed;
  * `accepts_astDocument_iff` — the envelope of a document: a source text, and a root that is an
    object or null;
  * `accepts_astDocument_of_lintRequest` — a request is the envelope of a document.
-/
import NegationLint.Schema.Contracts

namespace NegationLint

namespace Schema

/-! ## One law for each kind of schema -/

theorem accepts_text_iff {least : Nat} {most : Option Nat} {v : Json} :
    (Schema.text least most).accepts v = true
      ↔ ∃ t, v = .str t ∧ least ≤ t.length ∧ ∀ m, most = some m → t.length ≤ m := by
  cases v with
  | str t => cases most <;> simp [accepts]
  | _ => simp [accepts]

theorem accepts_anyText_iff {v : Json} : anyText.accepts v = true ↔ ∃ t, v = .str t := by
  rw [anyText, accepts_text_iff]
  simp

theorem accepts_integer_iff {least : Int} {v : Json} :
    (Schema.integer least).accepts v = true
      ↔ ∃ n k, v = .num n ∧ n.integer? = some k ∧ least ≤ k := by
  cases v with
  | num n => cases h : n.integer? <;> simp [accepts, h]
  | _ => simp [accepts]

theorem accepts_int_iff {least k : Int} : (Schema.integer least).accepts (.int k) = true ↔ least ≤ k := by
  rw [accepts_integer_iff]
  constructor
  · rintro ⟨w, m, same, value, bound⟩
    obtain rfl := Json.num.inj same
    obtain rfl := Option.some.inj value
    exact bound
  · intro bound
    exact ⟨.int k, k, rfl, rfl, bound⟩

theorem accepts_oneOf_str_iff {words : List Text} {t : Text} :
    (Schema.oneOf words).accepts (.str t) = true ↔ t ∈ words :=
  List.contains_iff_mem

theorem accepts_ofKind_iff {kinds : List JsonKind} {v : Json} :
    (Schema.ofKind kinds).accepts v = true ↔ JsonKind.of v ∈ kinds :=
  List.contains_iff_mem

theorem accepts_list_iff {items : Schema} {v : Json} :
    (Schema.list items).accepts v = true ↔ ∃ vs, v = .arr vs ∧ ∀ w ∈ vs, items.accepts w = true := by
  cases v with
  | arr vs => simp [accepts]
  | _ => simp [accepts]

theorem acceptsProperties_iff {properties : List (Text × Schema)} {fields : List (Text × Json)} :
    acceptsProperties properties fields = true
      ↔ ∀ p ∈ properties, ∀ v, Json.lookup p.1 fields = some v → p.2.accepts v = true := by
  induction properties with
  | nil => simp [acceptsProperties]
  | cons p properties ih =>
    obtain ⟨key, schema⟩ := p
    rw [acceptsProperties, Bool.and_eq_true, ih, List.forall_mem_cons]
    cases Json.lookup key fields with
    | none => simp
    | some v => simp

theorem accepts_record_iff {required : List Text} {properties : List (Text × Schema)}
    {isOpen : Bool} {v : Json} :
    (Schema.record required properties isOpen).accepts v = true
      ↔ ∃ fields, v = .obj fields ∧ (∀ key ∈ required, ∃ w, Json.lookup key fields = some w)
        ∧ (∀ p ∈ properties, ∀ w, Json.lookup p.1 fields = some w → p.2.accepts w = true)
        ∧ (isOpen = true ∨ ∀ f ∈ fields, f.1 ∈ properties.map Prod.fst) := by
  cases v with
  | obj fields =>
    simp only [accepts, Bool.and_eq_true, Bool.or_eq_true, List.all_eq_true, acceptsProperties_iff,
      Option.isSome_iff_exists, List.contains_iff_mem, and_assoc, Json.obj.injEq, exists_eq_left']
  | _ => simp [accepts]

/-- A property of a record is kept if the value of its key is accepted. -/
theorem accepts_of_lookup {schema : Schema} {key : Text} {fields : List (Text × Json)} {v : Json}
    (found : Json.lookup key fields = some v) (kept : schema.accepts v = true) :
    ∀ w, Json.lookup key fields = some w → schema.accepts w = true := by
  intro w hw
  obtain rfl := Option.some.inj (found.symm.trans hw)
  exact kept

end Schema

/-! ## Records with other values -/

/-- Values that are changed by their keys are looked up as before and then changed. -/
theorem Json.lookup_map (change : Text → Json → Json) (key : Text) (fields : List (Text × Json)) :
    lookup key (fields.map fun (k, v) => (k, change k v)) = (lookup key fields).map (change key) := by
  induction fields with
  | nil => rfl
  | cons f fields ih =>
    obtain ⟨k, v⟩ := f
    rw [List.map_cons, lookup, lookup, ih]
    split
    · rename_i same
      rw [same]
      rfl
    · rfl

/-- A record whose values are changed by their keys is accepted as before, if no change matters to the
    schema of its property. -/
theorem Schema.accepts_record_map {change : Text → Json → Json} {required : List Text}
    {properties : List (Text × Schema)} {isOpen : Bool} {fields : List (Text × Json)}
    (same : ∀ p ∈ properties, ∀ v, p.2.accepts (change p.1 v) = p.2.accepts v) :
    (Schema.record required properties isOpen).accepts
      (.obj (fields.map fun (key, v) => (key, change key v)))
      = (Schema.record required properties isOpen).accepts (.obj fields) := by
  have present : (required.all fun key =>
      (Json.lookup key (fields.map fun (k, v) => (k, change k v))).isSome)
      = required.all fun key => (Json.lookup key fields).isSome := by
    simp only [Json.lookup_map, Option.isSome_map]
  have each : acceptsProperties properties (fields.map fun (key, v) => (key, change key v))
      = acceptsProperties properties fields := by
    induction properties with
    | nil => rfl
    | cons p properties ih =>
      obtain ⟨key, schema⟩ := p
      rw [acceptsProperties, acceptsProperties, Json.lookup_map,
        ih fun p hp => same p (List.mem_cons_of_mem _ hp)]
      cases Json.lookup key fields with
      | none => rfl
      | some v =>
        have kept : schema.accepts (change key v) = schema.accepts v :=
          same (key, schema) List.mem_cons_self v
        simp only [Option.map_some, kept]
  rw [accepts, accepts, present, each, List.all_map]
  rfl

namespace Json

/-! ## The envelope of a document -/

/-- The raw document has this source and this root, which is an object or null. -/
structure Envelope (raw : Json) (source : Text) (root : Json) : Prop where
  source_eq : raw.get? "source" = some (.str source)
  root_eq : raw.get? "ast" = some root
  kind : root.isObject = true ∨ root = .null

theorem Envelope.unique {raw root root' : Json} {source source' : Text}
    (h : Envelope raw source root) (h' : Envelope raw source' root') :
    source = source' ∧ root = root' :=
  ⟨Json.str.inj (Option.some.inj (h.source_eq.symm.trans h'.source_eq)),
    Option.some.inj (h.root_eq.symm.trans h'.root_eq)⟩

theorem kind_mem_object_null_iff {v : Json} :
    JsonKind.of v ∈ [JsonKind.object, JsonKind.null] ↔ v.isObject = true ∨ v = .null := by
  cases v <;> simp [JsonKind.of, isObject]

/-- The contract on documents asks for an envelope, whatever there is besides. -/
theorem accepts_astDocument_iff {raw : Json} :
    Contract.astDocument.accepts raw = true ↔ ∃ source root, Envelope raw source root := by
  rw [Contract.accepts, Contract.astDocument, Schema.accepts_record_iff]
  constructor
  · rintro ⟨fields, rfl, required, properties, -⟩
    obtain ⟨s, hs⟩ := required "source" (by simp)
    obtain ⟨root, hr⟩ := required "ast" (by simp)
    obtain ⟨source, rfl⟩ := Schema.accepts_anyText_iff.1 (properties ("source", .anyText) (by simp) s hs)
    have kind := properties ("ast", .ofKind [.object, .null]) (by simp) root hr
    exact ⟨source, root, hs, hr, kind_mem_object_null_iff.1 (Schema.accepts_ofKind_iff.1 kind)⟩
  · rintro ⟨source, root, hs, hr, kind⟩
    cases raw with
    | obj fields =>
      refine ⟨fields, rfl, ?_, ?_, Or.inl rfl⟩
      · simp only [List.forall_mem_cons, List.not_mem_nil, false_imp_iff, implies_true, and_true]
        exact ⟨⟨_, hs⟩, ⟨_, hr⟩⟩
      · simp only [List.forall_mem_cons, List.not_mem_nil, false_imp_iff, implies_true, and_true]
        constructor
        · intro w hw
          obtain rfl := Option.some.inj (hs.symm.trans hw)
          exact Schema.accepts_anyText_iff.2 ⟨_, rfl⟩
        · intro w hw
          obtain rfl := Option.some.inj (hr.symm.trans hw)
          exact Schema.accepts_ofKind_iff.2 (kind_mem_object_null_iff.2 kind)
    | _ => cases hs

/-- Every request to lint a document is the envelope of one. -/
theorem accepts_astDocument_of_lintRequest {v : Json} (h : Contract.lintRequest.accepts v = true) :
    Contract.astDocument.accepts v = true := by
  rw [Contract.accepts, Contract.lintRequest, Schema.accepts_record_iff] at h
  obtain ⟨fields, rfl, required, properties, -⟩ := h
  rw [Contract.accepts, Contract.astDocument, Schema.accepts_record_iff]
  refine ⟨fields, rfl, required, fun p hp => ?_, Or.inl rfl⟩
  refine properties p ?_
  rcases List.mem_cons.1 hp with rfl | hp
  · simp
  · obtain rfl := List.mem_singleton.1 hp
    simp

end Json

end NegationLint
