/-
  The grammar of raw trees.

  What a raw tree must look like is said here without building anything, slot by slot:

  1. `RawNode` — what an object says that keeps the contract on nodes, read off by `node?`; `Spells`
     is the same as a relation, and `accepts_astNode_iff` says that it is the published contract;
  2. `ownFault?` — the first of a slot's OWN checks that fails: it is an object, it spells a node,
     its offsets lie inside the source in the right order, both are written as integers, its
     children have the form that its tag asks for (`HasForm`);
  3. `slotsBelow` — the values below a node that must be nodes themselves, which depends on the tag
     alone, and `slots` — every slot of a raw tree, each before the slots below it and these from
     left to right.

  A document keeps the grammar when none of its slots has a fault.
-/
import NegationLint.Proofs.Contract
import NegationLint.Proofs.RawTree
import NegationLint.Tree.Document

namespace NegationLint

/-- The number is written as an integer, not with a point or an exponent. -/
def Number.isInteger : Number → Bool
  | .int _ => true
  | _ => false

/-- What a raw node says: its tag, its children, its two offsets, and whether both of these are
    written as integers. -/
structure RawNode where
  tag : Text
  children : List Json
  begin : Int
  stop : Int
  integral : Bool

namespace Json

/-! ## Objects that spell a node -/

/-- The value is an array. -/
def isArray : Json → Bool
  | .arr _ => true
  | _ => false

/-- The value is null. -/
def isNull : Json → Bool
  | .null => true
  | _ => false

/-- No property but these. -/
def HasOnly (keys : List Text) (fields : List (Text × Json)) : Prop :=
  ∀ f ∈ fields, f.1 ∈ keys

instance (keys : List Text) (fields : List (Text × Json)) : Decidable (HasOnly keys fields) :=
  inferInstanceAs (Decidable (∀ f ∈ fields, f.1 ∈ keys))

/-- The bounds on what a raw node says: a tag of 1 to 64 code points, no array among the children,
    offsets that are not negative. -/
def InBounds (n : RawNode) : Prop :=
  1 ≤ n.tag.length ∧ n.tag.length ≤ 64 ∧ (∀ c ∈ n.children, c.isArray = false)
    ∧ 0 ≤ n.begin ∧ 0 ≤ n.stop

instance (n : RawNode) : Decidable (InBounds n) :=
  inferInstanceAs (Decidable (1 ≤ n.tag.length ∧ n.tag.length ≤ 64
    ∧ (∀ c ∈ n.children, c.isArray = false) ∧ 0 ≤ n.begin ∧ 0 ≤ n.stop))

/-- The object with these fields spells that node: it has a tag, an array of children and a place,
    the place has two whole numbers, and neither has anything else. -/
structure Spells (fields : List (Text × Json)) (n : RawNode) : Prop where
  tag : lookup "type" fields = some (.str n.tag)
  children : lookup "children" fields = some (.arr n.children)
  offsets : ∃ loc first last, lookup "loc" fields = some (.obj loc)
    ∧ lookup "begin" loc = some (.num first) ∧ lookup "end" loc = some (.num last)
    ∧ first.integer? = some n.begin ∧ last.integer? = some n.stop
    ∧ n.integral = (first.isInteger && last.isInteger) ∧ HasOnly ["begin", "end"] loc
  only : HasOnly ["type", "children", "loc"] fields
  inBounds : InBounds n

/-- The node that a value spells, if it is an object that spells one. -/
def node? : Json → Option RawNode
  | .obj fields =>
    match lookup "type" fields, lookup "children" fields, lookup "loc" fields with
    | some (.str tag), some (.arr children), some (.obj loc) =>
      match lookup "begin" loc, lookup "end" loc with
      | some (.num first), some (.num last) =>
        match first.integer?, last.integer? with
        | some begin, some stop =>
          let n : RawNode := ⟨tag, children, begin, stop, first.isInteger && last.isInteger⟩
          if HasOnly ["type", "children", "loc"] fields ∧ HasOnly ["begin", "end"] loc ∧ InBounds n
          then some n else none
        | _, _ => none
      | _, _ => none
    | _, _, _ => none
  | _ => none

theorem node?_eq_some_iff {fields : List (Text × Json)} {n : RawNode} :
    (Json.obj fields).node? = some n ↔ Spells fields n := by
  constructor
  · intro h
    simp only [node?] at h
    split at h
    · rename_i tag children loc ht hc hl
      split at h
      · rename_i first last hb he
        split at h
        · rename_i begin stop hfirst hlast
          split at h
          · rename_i ok
            obtain rfl := Option.some.inj h
            exact ⟨ht, hc, ⟨loc, first, last, hl, hb, he, hfirst, hlast, rfl, ok.2.1⟩, ok.1, ok.2.2⟩
          · cases h
        · cases h
      · cases h
    · cases h
  · rintro ⟨ht, hc, ⟨loc, first, last, hl, hb, he, hfirst, hlast, hint, honly⟩, only, inBounds⟩
    obtain ⟨tag, children, begin, stop, integral⟩ := n
    simp only at ht hc hfirst hlast hint
    subst hint
    simp only [node?, ht, hc, hl, hb, he, hfirst, hlast]
    exact if_pos ⟨only, honly, inBounds⟩

theorem kind_mem_children_iff {v : Json} :
    JsonKind.of v ∈ [JsonKind.object, JsonKind.string, JsonKind.number, JsonKind.boolean,
      JsonKind.null] ↔ v.isArray = false := by
  cases v <;> simp [JsonKind.of, isArray]

theorem exists_spells_of_accepts {fields : List (Text × Json)}
    (h : Contract.astNode.accepts (.obj fields) = true) : ∃ n, Spells fields n := by
  rw [Contract.accepts, Contract.astNode] at h
  obtain ⟨_, h, required, properties, isOpen | only⟩ := Schema.accepts_record_iff.1 h
  · cases isOpen
  obtain rfl := Json.obj.inj h
  -- the three properties are there, and each keeps the law of its own schema
  obtain ⟨t, ht⟩ := required "type" (by simp)
  obtain ⟨c, hc⟩ := required "children" (by simp)
  obtain ⟨l, hl⟩ := required "loc" (by simp)
  obtain ⟨tag, rfl, least, most⟩ := Schema.accepts_text_iff.1
    (properties ("type", .text 1 (some 64)) (by simp) t ht)
  obtain ⟨children, rfl, items⟩ := Schema.accepts_list_iff.1 (properties
    ("children", .list (.ofKind [.object, .string, .number, .boolean, .null])) (by simp) c hc)
  obtain ⟨loc, rfl, places, numbers, isOpen | onlyOffsets⟩ := Schema.accepts_record_iff.1 (properties
    ("loc", .record ["begin", "end"] [("begin", .integer 0), ("end", .integer 0)] false)
    (by simp) l hl)
  · cases isOpen
  obtain ⟨b, hb⟩ := places "begin" (by simp)
  obtain ⟨e, he⟩ := places "end" (by simp)
  obtain ⟨first, begin, rfl, hfirst, begin₀⟩ := Schema.accepts_integer_iff.1
    (numbers ("begin", .integer 0) (by simp) b hb)
  obtain ⟨last, stop, rfl, hlast, stop₀⟩ := Schema.accepts_integer_iff.1
    (numbers ("end", .integer 0) (by simp) e he)
  refine ⟨⟨tag, children, begin, stop, first.isInteger && last.isInteger⟩, ht, hc,
    ⟨loc, first, last, hl, hb, he, hfirst, hlast, rfl, onlyOffsets⟩, only, ?_⟩
  exact ⟨least, most 64 rfl, fun c hc => kind_mem_children_iff.1
    (Schema.accepts_ofKind_iff.1 (items c hc)), begin₀, stop₀⟩

theorem accepts_of_spells {fields : List (Text × Json)} {n : RawNode} (h : Spells fields n) :
    Contract.astNode.accepts (.obj fields) = true := by
  obtain ⟨ht, hc, ⟨loc, first, last, hl, hb, he, hfirst, hlast, -, honly⟩, only,
    least, most, noArray, begin₀, stop₀⟩ := h
  rw [Contract.accepts, Contract.astNode, Schema.accepts_record_iff]
  refine ⟨fields, rfl, ?_, ?_, Or.inr only⟩
  · simp only [List.forall_mem_cons, List.not_mem_nil, false_imp_iff, implies_true, and_true]
    exact ⟨⟨_, ht⟩, ⟨_, hc⟩, ⟨_, hl⟩⟩
  · simp only [List.forall_mem_cons, List.not_mem_nil, false_imp_iff, implies_true, and_true,
      ht, hc, hl, Option.some.injEq, forall_eq']
    refine ⟨Schema.accepts_text_iff.2 ⟨_, rfl, least, ?_⟩, Schema.accepts_list_iff.2 ⟨_, rfl, ?_⟩,
      Schema.accepts_record_iff.2 ⟨_, rfl, ?_, ?_, Or.inr honly⟩⟩
    · rintro m h
      obtain rfl := Option.some.inj h
      exact most
    · intro c hc
      exact Schema.accepts_ofKind_iff.2 (kind_mem_children_iff.2 (noArray c hc))
    · simp only [List.forall_mem_cons, List.not_mem_nil, false_imp_iff, implies_true, and_true]
      exact ⟨⟨_, hb⟩, ⟨_, he⟩⟩
    · simp only [List.forall_mem_cons, List.not_mem_nil, false_imp_iff, implies_true, and_true,
        hb, he, Option.some.injEq, forall_eq']
      exact ⟨Schema.accepts_integer_iff.2 ⟨_, _, rfl, hfirst, begin₀⟩,
        Schema.accepts_integer_iff.2 ⟨_, _, rfl, hlast, stop₀⟩⟩

/-- The contract on nodes accepts the objects that spell a node, and nothing else. -/
theorem accepts_astNode_iff {fields : List (Text × Json)} :
    Contract.astNode.accepts (.obj fields) = true ↔ ∃ n, Spells fields n := by
  constructor
  · exact exists_spells_of_accepts
  · rintro ⟨n, spelled⟩
    exact accepts_of_spells spelled

/-! ## Faults -/

/-- What is wrong with the form of a node's children: a call has a receiver slot and the name of a
    method, an entry has a key and a value, a literal has its text and nothing else. -/
def formFault? (kind : NodeKind) (children : List Json) : Option LoadError :=
  match kind with
  | .send => match children with
    | _ :: .str _ :: _ => none
    | _ :: _ :: _ => some .sendMethod
    | _ => some .sendArity
  | .pair => if children.length = 2 then none else some .pairArity
  | .sym | .str => match children with
    | [.str _] => none
    | _ => some .literalForm
  | .hash | .array | .other => none

/-- The forms that the children of a node may have, by its kind. -/
inductive HasForm : NodeKind → List Json → Prop
  | send (receiver : Json) (method : Text) (arguments : List Json) :
    HasForm .send (receiver :: .str method :: arguments)
  | hash (entries : List Json) : HasForm .hash entries
  | pair (key value : Json) : HasForm .pair [key, value]
  | array (elements : List Json) : HasForm .array elements
  | sym (value : Text) : HasForm .sym [.str value]
  | str (value : Text) : HasForm .str [.str value]
  | other (children : List Json) : HasForm .other children

/-- Children with nothing wrong about their form have one of these forms. -/
theorem hasForm_of_formFault?_eq_none {kind : NodeKind} {children : List Json}
    (h : formFault? kind children = none) : HasForm kind children := by
  cases kind with
  | send =>
    rcases children with _ | ⟨receiver, _ | ⟨method, arguments⟩⟩
    · cases h
    · cases h
    · cases method with
      | str method => exact .send receiver method arguments
      | _ => cases h
  | pair =>
    rcases children with _ | ⟨key, _ | ⟨value, _ | ⟨third, rest⟩⟩⟩
    · cases h
    · cases h
    · exact .pair key value
    · cases h
  | sym =>
    rcases children with _ | ⟨value, _ | ⟨second, rest⟩⟩
    · cases h
    · cases value with
      | str value => exact .sym value
      | _ => cases h
    · cases value <;> cases h
  | str =>
    rcases children with _ | ⟨value, _ | ⟨second, rest⟩⟩
    · cases h
    · cases value with
      | str value => exact .str value
      | _ => cases h
    · cases value <;> cases h
  | hash => exact .hash children
  | array => exact .array children
  | other => exact .other children

theorem formFault?_ne_decimalOffset (kind : NodeKind) (children : List Json) :
    formFault? kind children ≠ some .decimalOffset := by
  unfold formFault?
  split <;> (try split) <;> exact nofun

/-- The first of its own checks that a raw node fails in a source of so many code points. -/
def nodeFault? (size : Nat) (n : RawNode) : Option LoadError :=
  if n.stop < n.begin ∨ size < n.stop then some .outsideSource
  else if n.integral = false then some .decimalOffset
  else formFault? (NodeKind.ofTag n.tag) n.children

/-- The first of its own checks that a slot fails in a source of so many code points. -/
def ownFault? (size : Nat) (slot : Json) : Option LoadError :=
  if slot.isObject = false then some .notAnObject
  else match slot.node? with
    | none => some .malformedNode
    | some n => nodeFault? size n

/-- The slot passes all of its own checks. -/
def WellFormed (size : Nat) (slot : Json) : Prop := ownFault? size slot = none

theorem nodeFault?_eq_none_iff {size : Nat} {n : RawNode} :
    nodeFault? size n = none ↔ n.begin ≤ n.stop ∧ n.stop ≤ size ∧ n.integral = true
      ∧ formFault? (NodeKind.ofTag n.tag) n.children = none := by
  rw [nodeFault?]
  by_cases outside : n.stop < n.begin ∨ (size : Int) < n.stop
  · rw [if_pos outside]
    constructor
    · intro h
      cases h
    · rintro ⟨_, _, -, -⟩
      omega
  · rw [if_neg outside]
    cases n.integral with
    | false => simp
    | true =>
      simp only [Bool.true_eq_false, if_false, true_and]
      constructor
      · intro form
        exact ⟨by omega, by omega, form⟩
      · rintro ⟨-, -, form⟩
        exact form

theorem nodeFault?_eq_decimalOffset_iff {size : Nat} {n : RawNode} :
    nodeFault? size n = some .decimalOffset
      ↔ n.begin ≤ n.stop ∧ n.stop ≤ size ∧ n.integral = false := by
  rw [nodeFault?]
  by_cases outside : n.stop < n.begin ∨ (size : Int) < n.stop
  · rw [if_pos outside]
    constructor
    · intro h
      cases h
    · rintro ⟨_, _, -⟩
      omega
  · rw [if_neg outside]
    by_cases decimal : n.integral = false
    · rw [if_pos decimal]
      exact ⟨fun _ => ⟨by omega, by omega, decimal⟩, fun _ => rfl⟩
    · rw [if_neg decimal]
      constructor
      · intro form
        exact absurd form (formFault?_ne_decimalOffset _ _)
      · rintro ⟨-, -, h⟩
        exact absurd h decimal

theorem ownFault?_of_not_spells {fields : List (Text × Json)} (size : Nat)
    (h : ∀ n, ¬ Spells fields n) : ownFault? size (.obj fields) = some .malformedNode := by
  have unread : (Json.obj fields).node? = none := by
    rw [Option.eq_none_iff_forall_ne_some]
    intro n hn
    exact h n (node?_eq_some_iff.1 hn)
  show (match (Json.obj fields).node? with | none => _ | some n => _) = _
  rw [unread]

theorem ownFault?_of_spells {fields : List (Text × Json)} {n : RawNode} (size : Nat)
    (h : Spells fields n) : ownFault? size (.obj fields) = nodeFault? size n := by
  show (match (Json.obj fields).node? with | none => _ | some n => _) = _
  rw [node?_eq_some_iff.2 h]

/-- Only the checks on a node can be the reason for any other fault. -/
theorem exists_spells_of_ownFault? {size : Nat} {slot : Json} {fault : Option LoadError}
    (h : ownFault? size slot = fault) (object : fault ≠ some .notAnObject)
    (formed : fault ≠ some .malformedNode) :
    ∃ fields n, slot = .obj fields ∧ Spells fields n ∧ nodeFault? size n = fault := by
  cases slot with
  | obj fields =>
    by_cases spelled : ∃ n, Spells fields n
    · obtain ⟨n, hn⟩ := spelled
      rw [ownFault?_of_spells size hn] at h
      exact ⟨fields, n, rfl, hn, h⟩
    · rw [ownFault?_of_not_spells size (not_exists.1 spelled)] at h
      exact absurd h.symm formed
  | _ => exact absurd h.symm object

/-- A slot is well formed when it is an object that spells a node without a fault. -/
theorem wellFormed_iff {size : Nat} {slot : Json} :
    WellFormed size slot
      ↔ ∃ fields n, slot = .obj fields ∧ Spells fields n ∧ nodeFault? size n = none := by
  constructor
  · intro h
    exact exists_spells_of_ownFault? h nofun nofun
  · rintro ⟨fields, n, rfl, spelled, h⟩
    exact (ownFault?_of_spells size spelled).trans h

theorem isObject_of_wellFormed {size : Nat} {slot : Json} (h : WellFormed size slot) :
    slot.isObject = true := by
  obtain ⟨fields, -, rfl, -⟩ := wellFormed_iff.1 h
  rfl

/-! ## Slots -/

/-- Which of a node's children must be nodes: all those of a hash, an entry or an array; the receiver
    of a call unless it is null, and its arguments; those that are objects below a node of any other
    tag, save a symbol or a string. -/
def slotsAmong (kind : NodeKind) (children : List Json) : List Json :=
  match kind with
  | .hash | .pair | .array => children
  | .send => (children.take 1).filter (!·.isNull) ++ children.drop 2
  | .sym | .str => []
  | .other => children.filter isObject

/-- The slots right below a value, by its tag. -/
def slotsBelow (v : Json) : List Json :=
  match v.get? "type" with
  | some (.str tag) => slotsAmong (NodeKind.ofTag tag) v.childItems
  | _ => []

theorem mem_of_mem_slotsAmong {kind : NodeKind} {children : List Json} {c : Json}
    (h : c ∈ slotsAmong kind children) : c ∈ children := by
  cases kind with
  | send =>
    rcases List.mem_append.1 h with h | h
    · exact List.mem_of_mem_take (List.mem_filter.1 h).1
    · exact List.mem_of_mem_drop h
  | other => exact (List.mem_filter.1 h).1
  | sym => cases h
  | str => cases h
  | hash => exact h
  | pair => exact h
  | array => exact h

theorem mem_childItems_of_mem_slotsBelow {v c : Json} (h : c ∈ v.slotsBelow) : c ∈ v.childItems := by
  rw [slotsBelow] at h
  split at h
  · exact mem_of_mem_slotsAmong h
  · cases h

/-- The slots of a raw tree in pre-order, the root among them. -/
def slots (v : Json) : List Json := v :: v.slotsBelow.attach.flatMap fun c => slots c.1
termination_by sizeOf v
decreasing_by exact sizeOf_lt_of_mem_childItems (mem_childItems_of_mem_slotsBelow c.2)

theorem slots_eq (v : Json) : v.slots = v :: v.slotsBelow.flatMap slots := by
  rw [slots, List.flatMap_def, List.attach_map_val, List.flatMap_def]

/-- The slots of a document: those of its root, none for an empty file. -/
def documentSlots (root : Json) : List Json := if root.isNull then [] else root.slots

end Json

end NegationLint
