/-
  Loading decides the grammar.

  The builder checks a node, then builds what stands below it, and the first failure wins.  The
  grammar lists the slots of the same raw tree in pre-order, each with a fault of its own or none.
  The two say the same:

  1. `failure?_mapM` — a list of builds fails as its leftmost failing member;
  2. `build_of_spells`, `build_of_not_spells` — one node: its own checks, then its children;
  3. `assemble_of_form`, `assemble_of_formFault` — the children of a tag: with the right form the
     node is made of what its slots build to, in order; with the wrong one nothing below is looked at;
  4. `failure?_build` — THE CRUX, by induction on the raw tree: a build fails as the first fault in
     the pre-order of the slots;
  5. `load_decides_grammar` — the same for a whole document that is neither too large nor too deep, with
     what is loaded of it (`root_of_load`).
-/
import Mathlib.Data.List.Forall2
import NegationLint.Proofs.Grammar
import NegationLint.Schema.Registry

namespace NegationLint

namespace Document

open Json (Spells nodeFault? ownFault? formFault? slotsAmong documentSlots)

/-! ## Failures -/

section Failures

variable {α β ε : Type}

/-- The error of a computation that fails. -/
def failure? : Except ε α → Option ε
  | .error e => some e
  | .ok _ => none

theorem failure?_eq_none_iff {r : Except ε α} : failure? r = none ↔ ∃ a, r = .ok a := by
  cases r <;> simp [failure?]

theorem failure?_eq_some_iff {r : Except ε α} {e : ε} : failure? r = some e ↔ r = .error e := by
  cases r <;> simp [failure?]

theorem failure?_map (f : α → β) (r : Except ε α) : failure? (f <$> r) = failure? r := by
  cases r <;> rfl

/-- A list of computations fails as the leftmost of them that does. -/
theorem failure?_mapM (f : α → Except ε β) (xs : List α) :
    failure? (xs.mapM f) = xs.findSome? fun x => failure? (f x) := by
  induction xs with
  | nil => rfl
  | cons x xs ih =>
    rw [List.mapM_cons, List.findSome?_cons, ← ih]
    cases f x with
    | error e => rfl
    | ok y => cases xs.mapM f <;> rfl

/-- A list of computations succeeds with the results of all of them, in order. -/
theorem mapM_eq_ok_iff {f : α → Except ε β} {xs : List α} {ys : List β} :
    xs.mapM f = .ok ys ↔ List.Forall₂ (fun x y => f x = .ok y) xs ys := by
  induction xs generalizing ys with
  | nil =>
    rw [List.mapM_nil, List.forall₂_nil_left_iff]
    exact ⟨fun h => (Except.ok.inj h).symm, fun h => h ▸ rfl⟩
  | cons x xs ih =>
    rw [List.mapM_cons, List.forall₂_cons_left_iff]
    constructor
    · intro h
      cases hx : f x with
      | error e => rw [hx] at h; cases h
      | ok y =>
        cases hxs : xs.mapM f with
        | error e => rw [hx, hxs] at h; cases h
        | ok zs =>
          rw [hx, hxs] at h
          exact ⟨y, zs, rfl, ih.1 hxs, (Except.ok.inj h).symm⟩
    · rintro ⟨y, zs, hx, hxs, rfl⟩
      rw [hx, ih.2 hxs]
      rfl

end Failures

/-! ## One node -/

theorem itemResults_eq (b : Buffer) (items : List Json) :
    itemResults b items = items.map fun c => (c, build b c) := by
  induction items with
  | nil => rfl
  | cons v vs ih => rw [itemResults, ih, List.map_cons]

theorem childResults_eq (b : Buffer) {fields : List (Text × Json)} {items : List Json}
    (h : Json.lookup "children" fields = some (.arr items)) :
    childResults b fields = items.map fun c => (c, build b c) := by
  induction fields with
  | nil => cases h
  | cons f fields ih =>
    obtain ⟨key, v⟩ := f
    rw [Json.lookup] at h
    by_cases hk : key = "children"
    · rw [if_pos hk] at h
      obtain rfl := Option.some.inj h
      rw [childResults, if_pos hk, itemResults_eq]
    · rw [if_neg hk] at h
      cases v with
      | arr vs => rw [childResults, if_neg hk, ih h]
      | _ => simp only [childResults, if_neg hk, ih h]

/-- Where a raw node stands in a source. -/
def siteOf (b : Buffer) (n : RawNode) : Site :=
  ⟨b.span n.begin n.stop, b.slice (b.span n.begin n.stop)⟩

/-- An object that spells a node is built by the node's remaining own checks and its children. -/
theorem build_of_spells (b : Buffer) {fields : List (Text × Json)} {n : RawNode}
    (h : Spells fields n) :
    build b (.obj fields) =
      if n.stop < n.begin ∨ b.size < n.stop then .error .outsideSource
      else if n.integral = false then .error .decimalOffset
      else assemble n.tag (siteOf b n) (n.children.map fun c => (c, build b c)) := by
  have accepted := Json.accepts_astNode_iff.2 ⟨n, h⟩
  obtain ⟨ht, hc, ⟨loc, first, last, hl, hb, he, hfirst, hlast, hint, -⟩, -, -⟩ := h
  -- what the builder reads off is what the object spells
  have offsets : offsets? fields = some (first, last) := by
    simp only [offsets?, hl, Json.get?, hb, he]
  have site : siteBetween b first last
      = if n.stop < n.begin ∨ b.size < n.stop then .error .outsideSource
        else if n.integral = false then .error .decimalOffset else .ok (siteOf b n) := by
    simp only [siteBetween, hfirst, hlast]
    split
    · rfl
    · cases first <;> cases last <;> simp [hint, Number.isInteger, siteOf]
  rw [build, frame, accepted, ht, offsets, childResults_eq b hc]
  simp only [Bool.not_true, Bool.false_eq_true, if_false, site]
  split
  · rfl
  · split <;> rfl

theorem build_of_not_spells (b : Buffer) {fields : List (Text × Json)}
    (h : ∀ n, ¬ Spells fields n) : build b (.obj fields) = .error .malformedNode := by
  have refused : Contract.astNode.accepts (.obj fields) = false := by
    rw [← Bool.not_eq_true, Json.accepts_astNode_iff]
    exact fun ⟨n, hn⟩ => h n hn
  rw [build, frame, refused]
  rfl

/-! ## The children of a tag -/

/-- The node is what a tag makes of the nodes below it at a place. -/
structure Assembled (tag : Text) (site : Site) (below : List Node) (n : Node) : Prop where
  site_eq : n.site = site
  kind_eq : n.kind = NodeKind.ofTag tag
  children_eq : n.children = below
  tag_eq : ∀ s t cs, n = .other s t cs → t = tag

theorem collect_map (f : Json → Except LoadError Node) (items : List Json) :
    collect (items.map fun c => (c, f c)) = items.mapM f := by
  rw [collect, List.mapM_map]
  rfl

/-- Children of the wrong form fail before any of them is built. -/
theorem assemble_of_formFault {tag : Text} {items : List Json} {e : LoadError}
    (h : formFault? (NodeKind.ofTag tag) items = some e) (site : Site)
    (f : Json → Except LoadError Node) :
    assemble tag site (items.map fun c => (c, f c)) = .error e := by
  unfold assemble
  cases hk : NodeKind.ofTag tag with
  | send =>
    rw [hk] at h
    rcases items with _ | ⟨receiver, _ | ⟨method, arguments⟩⟩
    · cases h; rfl
    · cases h; rfl
    · cases method <;> cases h <;> rfl
  | pair =>
    rw [hk] at h
    rcases items with _ | ⟨key, _ | ⟨value, _ | ⟨third, rest⟩⟩⟩
    · cases h; rfl
    · cases h; rfl
    · cases h
    · cases h; rfl
  | sym =>
    rw [hk] at h
    rcases items with _ | ⟨value, _ | ⟨second, rest⟩⟩
    · cases h; rfl
    · cases value <;> cases h <;> rfl
    · cases value <;> cases h <;> rfl
  | str =>
    rw [hk] at h
    rcases items with _ | ⟨value, _ | ⟨second, rest⟩⟩
    · cases h; rfl
    · cases value <;> cases h <;> rfl
    · cases value <;> cases h <;> rfl
  | hash => rw [hk] at h; cases h
  | array => rw [hk] at h; cases h
  | other => rw [hk] at h; cases h

/-- A call is made of its arguments alone when the receiver's slot is null, and of the receiver and
    the arguments otherwise. -/
theorem assemble_send {tag : Text} (hk : NodeKind.ofTag tag = .send) (site : Site)
    (f : Json → Except LoadError Node) (receiver : Json) (method : Text) (arguments : List Json) :
    assemble tag site ((receiver :: .str method :: arguments).map fun c => (c, f c)) =
      if receiver.isNull then Node.send site none method <$> arguments.mapM f
      else do
        let r ← f receiver
        let below ← arguments.mapM f
        return .send site (some r) method below := by
  unfold assemble
  rw [hk, ← collect_map f arguments]
  cases receiver <;> simp [Json.isNull]

/-- A node that is not looked into keeps what its raw nodes build to, and nothing of its scalars. -/
theorem assemble_other {tag : Text} (hk : NodeKind.ofTag tag = .other) (site : Site)
    (f : Json → Except LoadError Node) (items : List Json) :
    assemble tag site (items.map fun c => (c, f c))
      = Node.other site tag <$> (items.filter Json.isObject).mapM f := by
  unfold assemble
  rw [hk, List.filter_map, ← collect_map f]
  rfl

/-- The result is a node made of what these slots build to, in order. -/
def MadeOf (tag : Text) (site : Site) (f : Json → Except LoadError Node) (slots : List Json)
    (result : Except LoadError Node) : Prop :=
  ∃ make : List Node → Node, result = make <$> slots.mapM f
    ∧ ∀ below, below.length = slots.length → Assembled tag site below (make below)

theorem madeOf_send {tag : Text} (hk : NodeKind.ofTag tag = .send) (site : Site)
    (f : Json → Except LoadError Node) (receiver : Json) (method : Text) (arguments : List Json) :
    MadeOf tag site f (slotsAmong .send (receiver :: .str method :: arguments))
      (assemble tag site ((receiver :: .str method :: arguments).map fun c => (c, f c))) := by
  rw [assemble_send hk]
  cases hr : receiver.isNull with
  | true =>
    have slots : slotsAmong .send (receiver :: .str method :: arguments) = arguments := by
      simp [slotsAmong, hr]
    rw [slots]
    exact ⟨_, rfl, fun below _ => ⟨rfl, hk.symm, rfl, nofun⟩⟩
  | false =>
    have slots : slotsAmong .send (receiver :: .str method :: arguments)
        = receiver :: arguments := by
      simp [slotsAmong, hr]
    rw [slots]
    -- the receiver is the first of the nodes below, and `make` takes it off again
    refine ⟨fun below => .send site below.head? method below.tail, ?_, ?_⟩
    · rw [List.mapM_cons]
      cases f receiver with
      | error e => rfl
      | ok r => cases arguments.mapM f <;> rfl
    · rintro (_ | ⟨r, below⟩) length
      · cases length
      · exact ⟨rfl, hk.symm, rfl, nofun⟩

theorem madeOf_pair {tag : Text} (hk : NodeKind.ofTag tag = .pair) (site : Site)
    (f : Json → Except LoadError Node) (key value : Json) :
    MadeOf tag site f [key, value] (assemble tag site ([key, value].map fun c => (c, f c))) := by
  -- without two nodes below there is nothing to make, and any node will do
  refine ⟨fun below => .pair site (below.headD (.hash site [])) (below.tail.headD (.hash site [])),
    ?_, ?_⟩
  · unfold assemble
    rw [hk]
    simp only [List.map_cons, List.map_nil, List.mapM_cons, List.mapM_nil]
    cases f key with
    | error e => rfl
    | ok k => cases f value <;> rfl
  · rintro (_ | ⟨k, _ | ⟨v, _ | ⟨third, below⟩⟩⟩) length
    · cases length
    · cases length
    · exact ⟨rfl, hk.symm, rfl, nofun⟩
    · cases length

theorem madeOf_leaf {tag : Text} {site : Site} (n : Node) (h : Assembled tag site [] n)
    (f : Json → Except LoadError Node) : MadeOf tag site f [] (.ok n) := by
  refine ⟨fun _ => n, rfl, ?_⟩
  rintro (_ | ⟨k, below⟩) length
  · exact h
  · cases length

/-- With children of the right form a node is made of what its slots build to. -/
theorem assemble_of_form {tag : Text} {items : List Json}
    (h : formFault? (NodeKind.ofTag tag) items = none) (site : Site)
    (f : Json → Except LoadError Node) :
    MadeOf tag site f (slotsAmong (NodeKind.ofTag tag) items)
      (assemble tag site (items.map fun c => (c, f c))) := by
  have form := Json.hasForm_of_formFault?_eq_none h
  generalize hk : NodeKind.ofTag tag = kind at form ⊢
  cases form with
  | send receiver method arguments => exact madeOf_send hk site f receiver method arguments
  | pair key value => exact madeOf_pair hk site f key value
  | sym value =>
    unfold assemble
    rw [hk]
    exact madeOf_leaf (.sym site value) ⟨rfl, hk.symm, rfl, nofun⟩ f
  | str value =>
    unfold assemble
    rw [hk]
    exact madeOf_leaf (.str site value) ⟨rfl, hk.symm, rfl, nofun⟩ f
  | hash =>
    refine ⟨.hash site, ?_, fun below _ => ⟨rfl, hk.symm, rfl, nofun⟩⟩
    unfold assemble
    rw [hk, collect_map]
    rfl
  | array =>
    refine ⟨.array site, ?_, fun below _ => ⟨rfl, hk.symm, rfl, nofun⟩⟩
    unfold assemble
    rw [hk, collect_map]
    rfl
  | other =>
    refine ⟨.other site tag, assemble_other hk site f items, fun below _ => ⟨rfl, hk.symm, rfl, ?_⟩⟩
    rintro s t cs h
    cases h
    rfl

/-! ## The whole tree -/

theorem findSome?_flatMap {α β γ : Type} {f : α → Option γ} {g : α → List β} {p : β → Option γ}
    {xs : List α} (h : ∀ x ∈ xs, f x = (g x).findSome? p) :
    xs.findSome? f = (xs.flatMap g).findSome? p := by
  induction xs with
  | nil => rfl
  | cons x xs ih =>
    rw [List.findSome?_cons, List.flatMap_cons, List.findSome?_append, h x List.mem_cons_self,
      ih fun y hy => h y (List.mem_cons_of_mem x hy)]
    cases (g x).findSome? p <;> rfl

theorem slotsBelow_of_spells {fields : List (Text × Json)} {n : RawNode} (h : Spells fields n) :
    (Json.obj fields).slotsBelow = slotsAmong (NodeKind.ofTag n.tag) n.children := by
  simp only [Json.slotsBelow, Json.get?, h.tag, Json.childItems_eq_of_lookup h.children]

/-- **The crux.**  Building a raw tree fails as the first fault in the pre-order of its slots.  By
    induction on the raw tree: a node that fails a check of its own is its own first slot, and one that
    passes them all fails as the leftmost of the builds below it. -/
theorem failure?_build (b : Buffer) (v : Json) :
    failure? (build b v) = v.slots.findSome? (ownFault? b.size) := by
  induction v using Json.childInduction with
  | step v ih =>
    rw [Json.slots_eq, List.findSome?_cons]
    cases v with
    | obj fields =>
      by_cases spelled : ∃ n, Spells fields n
      · obtain ⟨n, spelled⟩ := spelled
        rw [build_of_spells b spelled, Json.ownFault?_of_spells b.size spelled, nodeFault?]
        -- the node's own checks, in the same order on both sides
        split
        · rfl
        · split
          · rfl
          · cases hf : formFault? (NodeKind.ofTag n.tag) n.children with
            | some e =>
              rw [assemble_of_formFault hf]
              rfl
            | none =>
              -- nothing is wrong with the node, so what is left on both sides are its slots
              obtain ⟨make, hmake, -⟩ := assemble_of_form hf (siteOf b n) (build b)
              rw [hmake, failure?_map, failure?_mapM, slotsBelow_of_spells spelled]
              refine findSome?_flatMap ?_
              intro c hc
              rw [← slotsBelow_of_spells spelled] at hc
              exact ih c (Json.mem_childItems_of_mem_slotsBelow hc)
      · have unspelled := not_exists.1 spelled
        rw [build_of_not_spells b unspelled, Json.ownFault?_of_not_spells b.size unspelled]
        rfl
    | _ => rfl

/-! ## The whole document -/

/-- All that loading can do, stage by stage. -/
inductive Loads (settings : Settings) (raw : Json) : Except LoadError Document → Prop
  | envelope (refused : Contract.astDocument.accepts raw = false) :
    Loads settings raw (.error .envelope)
  | unencodable {source : Text} {root : Json} (env : Json.Envelope raw source root)
    (size : source.utf8Size? = none) : Loads settings raw (.error .unencodable)
  | tooLarge {source : Text} {root : Json} {bytes : Nat} (env : Json.Envelope raw source root)
    (size : source.utf8Size? = some bytes) (large : settings.maxSourceBytes < bytes) :
    Loads settings raw (.error (.tooLarge bytes settings.maxSourceBytes))
  | empty {source : Text} {bytes : Nat} (env : Json.Envelope raw source .null)
    (size : source.utf8Size? = some bytes) (small : bytes ≤ settings.maxSourceBytes) :
    Loads settings raw (.ok ⟨Buffer.ofText source, none⟩)
  | tooDeep {source : Text} {root : Json} {bytes : Nat} (env : Json.Envelope raw source root)
    (object : root.isObject = true) (size : source.utf8Size? = some bytes)
    (small : bytes ≤ settings.maxSourceBytes) (deep : settings.maxDepth < root.height) :
    Loads settings raw (.error (.tooDeep root.height settings.maxDepth))
  | tree {source : Text} {root : Json} {bytes : Nat} (env : Json.Envelope raw source root)
    (object : root.isObject = true) (size : source.utf8Size? = some bytes)
    (small : bytes ≤ settings.maxSourceBytes) (shallow : root.height ≤ settings.maxDepth) :
    Loads settings raw
      ((fun n => ⟨Buffer.ofText source, some n⟩) <$> build (Buffer.ofText source) root)

/-- Loading does one of these. -/
theorem loads (settings : Settings) (raw : Json) : Loads settings raw (load settings raw) := by
  rw [load]
  by_cases accepted : Contract.astDocument.accepts raw = true
  · obtain ⟨source, root, env⟩ := Json.accepts_astDocument_iff.1 accepted
    simp only [accepted, Bool.not_true, Bool.false_eq_true, if_false, env.source_eq, env.root_eq]
    -- the envelope is fine: next comes the size of the source
    cases size : source.utf8Size? with
    | none => exact .unencodable env size
    | some bytes =>
      by_cases large : settings.maxSourceBytes < bytes
      · simp only [if_pos large]
        exact .tooLarge env size large
      · simp only [if_neg large, loadTree]
        -- only a root that is there has a depth
        rcases env.kind with object | rfl
        · cases root with
          | obj fields =>
            simp only [Json.depth_eq_height]
            by_cases deep : settings.maxDepth < (Json.obj fields).height
            · simp only [if_pos deep]
              exact .tooDeep env rfl size (by omega) deep
            · simp only [if_neg deep]
              have tree := Loads.tree env rfl size (by omega) (Int.not_lt.1 deep)
              cases hb : build (Buffer.ofText source) (.obj fields) <;> rw [hb] at tree <;> exact tree
          | _ => cases object
        · exact .empty env size (by omega)
  · simp only [accepted, Bool.not_false, if_true]
    exact .envelope (Bool.not_eq_true _ ▸ accepted)

section Whole

variable {settings : Settings} {raw root : Json} {source : Text} {bytes : Nat}

/-- A document with an envelope is loaded by its size and then by its tree. -/
theorem load_of_envelope (env : Json.Envelope raw source root) : load settings raw =
    match source.utf8Size? with
    | none => .error .unencodable
    | some bytes =>
      if settings.maxSourceBytes < bytes then .error (.tooLarge bytes settings.maxSourceBytes)
      else loadTree settings source root := by
  rw [load, Json.accepts_astDocument_iff.2 ⟨source, root, env⟩, env.source_eq, env.root_eq]
  rfl

theorem load_of_unencodable (env : Json.Envelope raw source root) (size : source.utf8Size? = none) :
    load settings raw = .error .unencodable := by
  rw [load_of_envelope env, size]

theorem load_of_large (env : Json.Envelope raw source root) (size : source.utf8Size? = some bytes)
    (large : settings.maxSourceBytes < bytes) :
    load settings raw = .error (.tooLarge bytes settings.maxSourceBytes) := by
  rw [load_of_envelope env, size]
  exact if_pos large

theorem load_of_small (env : Json.Envelope raw source root) (size : source.utf8Size? = some bytes)
    (small : bytes ≤ settings.maxSourceBytes) :
    load settings raw = loadTree settings source root := by
  rw [load_of_envelope env, size]
  exact if_neg (Int.not_lt.2 small)

theorem loadTree_of_deep (object : root.isObject = true) (deep : settings.maxDepth < root.height) :
    loadTree settings source root = .error (.tooDeep root.height settings.maxDepth) := by
  rw [← Json.depth_eq_height] at deep ⊢
  cases root with
  | obj fields => exact if_pos deep
  | _ => cases object

theorem loadTree_of_shallow (object : root.isObject = true)
    (shallow : root.height ≤ settings.maxDepth) : loadTree settings source root
      = (fun n => ⟨Buffer.ofText source, some n⟩) <$> build (Buffer.ofText source) root := by
  rw [← Json.depth_eq_height] at shallow
  cases root with
  | obj fields =>
    show (if settings.maxDepth < (Json.obj fields).depth then _ else _) = _
    rw [if_neg (by omega)]
    cases build (Buffer.ofText source) (.obj fields) <;> rfl
  | _ => cases object

theorem documentSlots_of_isObject (h : root.isObject = true) : documentSlots root = root.slots := by
  cases root <;> first | rfl | cases h

/-- Past the checks on the envelope and the limits, a document fails as the first of its slots does. -/
theorem failure?_load (env : Json.Envelope raw source root)
    (size : source.utf8Size? = some bytes) (small : bytes ≤ settings.maxSourceBytes)
    (shallow : root ≠ .null → root.height ≤ settings.maxDepth) :
    failure? (load settings raw) = (documentSlots root).findSome? (ownFault? source.length) := by
  have solid {v : Json} (object : v.isObject = true) : v ≠ .null := by
    rintro rfl
    cases object
  generalize hres : load settings raw = result
  have done := loads settings raw
  rw [hres] at done
  -- a document has one envelope and its source one size, which rules out the stages before the tree
  cases done with
  | envelope refused =>
    rw [Json.accepts_astDocument_iff.2 ⟨_, _, env⟩] at refused
    cases refused
  | unencodable env' size' =>
    obtain ⟨rfl, rfl⟩ := env.unique env'
    cases size.symm.trans size'
  | tooLarge env' size' large =>
    obtain ⟨rfl, rfl⟩ := env.unique env'
    obtain rfl := Option.some.inj (size.symm.trans size')
    omega
  | empty env' =>
    obtain ⟨rfl, rfl⟩ := env.unique env'
    rfl
  | tooDeep env' object size' small' deep =>
    obtain ⟨rfl, rfl⟩ := env.unique env'
    have := shallow (solid object)
    omega
  | tree env' object =>
    obtain ⟨rfl, rfl⟩ := env.unique env'
    rw [failure?_map, failure?_build, documentSlots_of_isObject object]
    show root.slots.findSome? (ownFault? (Buffer.ofText source).size) = _
    rw [Buffer.size_ofText]

/-- All that a load that succeeds can say of its document. -/
theorem load_eq_ok {d : Document} (h : load settings raw = .ok d) :
    ∃ source root, Json.Envelope raw source root ∧ d.buffer = Buffer.ofText source
      ∧ ((root = .null ∧ d.root = none)
        ∨ ∃ n, d.root = some n ∧ build (Buffer.ofText source) root = .ok n) := by
  have done := loads settings raw
  generalize load settings raw = result at h done
  cases done with
  | empty env =>
    obtain rfl := Except.ok.inj h
    exact ⟨_, _, env, rfl, Or.inl ⟨rfl, rfl⟩⟩
  | @tree source root _ env =>
    cases hb : build (Buffer.ofText source) root with
    | error e =>
      rw [hb] at h
      cases h
    | ok n =>
      rw [hb] at h
      obtain rfl := Except.ok.inj h
      exact ⟨source, root, env, rfl, Or.inr ⟨n, rfl, hb⟩⟩
  | _ => cases h

/-- What is loaded: the source, and the node that the tree builds to if there is a tree. -/
theorem root_of_load (env : Json.Envelope raw source root) {d : Document}
    (h : load settings raw = .ok d) :
    d.source = source ∧ (root = .null → d.root = none)
    ∧ (root ≠ .null → ∃ n, d.root = some n ∧ build (Buffer.ofText source) root = .ok n) := by
  obtain ⟨source', root', env', buffer, rooted⟩ := load_eq_ok h
  obtain ⟨rfl, rfl⟩ := env.unique env'
  refine ⟨source_of_buffer_eq buffer, ?_, ?_⟩
  · rintro rfl
    rcases rooted with ⟨-, empty⟩ | ⟨n, -, built⟩
    · exact empty
    · -- only an object builds
      cases built
  · intro solid
    exact rooted.resolve_left fun empty => solid empty.1

/-- **Loading decides the grammar.**  A document whose envelope is fine, whose source is not too large
    and whose tree is not too deep loads exactly when every slot is well formed; otherwise the error
    is the fault of the first slot in pre-order that is not.  What loads has the source of the document and,
    unless there is no tree, the node that the tree builds to. -/
theorem load_decides_grammar (valid : Contract.astDocument.accepts raw = true)
    (hs : raw.get? "source" = some (.str source)) (hr : raw.get? "ast" = some root)
    (size : source.utf8Size? = some bytes) (small : bytes ≤ settings.maxSourceBytes)
    (shallow : root ≠ .null → root.height ≤ settings.maxDepth) :
    ((∃ d, load settings raw = .ok d)
      ↔ ∀ slot ∈ documentSlots root, Json.WellFormed source.length slot)
    ∧ (∀ e, load settings raw = .error e
      ↔ ∃ before slot after, documentSlots root = before ++ slot :: after
        ∧ ownFault? source.length slot = some e
        ∧ ∀ s ∈ before, Json.WellFormed source.length s)
    ∧ ∀ d, load settings raw = .ok d → d.source = source ∧ (root = .null → d.root = none)
      ∧ (root ≠ .null → ∃ n, d.root = some n ∧ build (Buffer.ofText source) root = .ok n) := by
  obtain ⟨_, _, env⟩ := Json.accepts_astDocument_iff.1 valid
  obtain rfl := Json.str.inj (Option.some.inj (env.source_eq.symm.trans hs))
  obtain rfl := Option.some.inj (env.root_eq.symm.trans hr)
  have agree := failure?_load env size small shallow
  refine ⟨?_, ?_, fun d => root_of_load env⟩
  · rw [← failure?_eq_none_iff, agree]
    exact List.findSome?_eq_none_iff
  · intro e
    rw [← failure?_eq_some_iff, agree]
    exact List.findSome?_eq_some_iff

/-- An array whose second element is an entry without a value, with an element outside the source
    below that entry and another one behind it. -/
def misshapenArray : Json :=
  Example.node "array" 0 7 [Example.symbol 1 3 "a",
    Example.node "pair" 1 3 [Example.node "int" 90 99 []], Example.node "int" 90 99 []]

/-- The document of that array. -/
def misshapenDocument : Json := .obj [("source", .str "[:a, 1]"), ("ast", misshapenArray)]

/-- The entry without a value comes first. -/
theorem load_decides_grammar_misshapenArray :
    load .standard misshapenDocument = .error .pairArity
    ∧ ∃ before slot after, documentSlots misshapenArray = before ++ slot :: after
      ∧ ownFault? 7 slot = some .pairArity ∧ ∀ s ∈ before, Json.WellFormed 7 s := by
  have hs : misshapenDocument.get? "source" = some (.str "[:a, 1]") := rfl
  have shallow : (misshapenArray.height : Int) ≤ Settings.standard.maxDepth := by
    rw [← Json.depth_eq_height]
    decide
  have loads : load .standard misshapenDocument = .error .pairArity := rfl
  obtain ⟨-, first, -⟩ := load_decides_grammar (by decide) hs rfl rfl (by decide) fun _ => shallow
  exact ⟨loads, (first .pairArity).1 loads⟩

end Whole

end Document

end NegationLint
