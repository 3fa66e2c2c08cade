/-
  The limit on the depth of a tree.

  A raw tree is measured before anything is built, so the limit has to be right about trees that are
  malformed, and about the typed tree that is built in the end.  The two trees have different children: the
  builder takes a call apart into receiver, method and arguments, and drops what is no node.

  1. `Node.height` — the height of a typed tree, by recursion on its seven shapes; `height_eq` says it
     through the children;
  2. `height_of_build` — THE CRUX: a node is as high as the raw tree that it was built from, by induction on
     the raw tree;
  3. `LoadError.message_eq_iff` — the message for a tree that is too deep is the message of nothing else;
  4. `tooDeep_iff_height` — a document within the limit on its source is refused for its depth exactly if
     the height of its raw tree is above the limit, and what loads is as high as its raw tree.
-/
import NegationLint.Proofs.Stages

namespace NegationLint

namespace Node

/-! ## The height of a typed tree -/

mutual

/-- The height of a tree: one more than the greatest height right below its root. -/
def height : Node → Nat
  | send _ none _ arguments => heightAll arguments + 1
  | send _ (some r) _ arguments => max (height r) (heightAll arguments) + 1
  | hash _ entries => heightAll entries + 1
  | pair _ key value => max (height key) (height value) + 1
  | array _ elements => heightAll elements + 1
  | sym .. => 1
  | str .. => 1
  | other _ _ children => heightAll children + 1

/-- The greatest height among several trees; zero if there are none. -/
def heightAll : List Node → Nat
  | [] => 0
  | n :: ns => max (height n) (heightAll ns)

end

theorem heightAll_eq (ns : List Node) : heightAll ns = (ns.map height).foldr max 0 := by
  induction ns with
  | nil => rfl
  | cons n ns ih => rw [heightAll, ih, List.map_cons, List.foldr_cons]

/-- Whatever the shape, a tree is one higher than the highest of the nodes right below. -/
theorem height_eq (n : Node) : n.height = (n.children.map height).foldr max 0 + 1 := by
  rw [← heightAll_eq]
  cases n with
  | send s r m args => cases r <;> rfl
  | pair s key value =>
    show max key.height value.height + 1 = max key.height (max value.height 0) + 1
    omega
  | _ => rfl

end Node

namespace Document

/-! ## Building keeps the height -/

/-- **The crux.**  A node is as high as the raw tree that it was built from.  By induction on the raw tree:
    the children of the node are the builds of the object children of the raw node, one by one. -/
theorem height_of_build {b : Buffer} {v : Json} {n : Node} (h : build b v = .ok n) :
    n.height = v.height := by
  induction v using Json.childInduction generalizing n with
  | step v ih =>
    obtain ⟨fields, r, below, rfl, -, -, built, assembled⟩ := build_eq_ok h
    -- a child's build and its place among the raw children are both needed below it
    have listed : List.Forall₂ (fun c k => c ∈ (Json.obj fields).rawChildren ∧ build b c = .ok k)
        (Json.obj fields).rawChildren below :=
      (List.forall₂_and_left _ _).2 ⟨fun c hc => hc, built⟩
    have each : List.Forall₂ (fun c k => Json.height c = Node.height k)
        (Json.obj fields).rawChildren below := by
      refine listed.imp ?_
      rintro c k ⟨hc, hk⟩
      exact (ih c (Json.mem_childItems_of_mem_rawChildren hc) hk).symm
    have same : (Json.obj fields).rawChildren.map Json.height = below.map Node.height := by
      rw [← List.forall₂_eq_eq_eq, List.forall₂_map_left_iff, List.forall₂_map_right_iff]
      exact each
    rw [Node.height_eq, Json.height_eq, assembled.children_eq, same]

end Document

/-! ## The message -/

/-- What is said of a tree that is too deep is said of nothing else. -/
theorem LoadError.message_eq_iff {e : LoadError} :
    e.message = some ("AST nesting exceeds the maximum allowed depth." : Text)
      ↔ ∃ depth limit, e = .tooDeep depth limit := by
  constructor
  · intro h
    cases e with
    | tooDeep depth limit => exact ⟨depth, limit, rfl⟩
    | tooLarge bytes limit =>
      have : ("Source exceeds maximum allowed size." : Text)
        = "AST nesting exceeds the maximum allowed depth." := Option.some.inj h
      exact absurd this (by decide)
    | _ => exact absurd h (by decide)
  · rintro ⟨depth, limit, rfl⟩
    rfl

namespace Document

/-! ## The limit -/

section Limit

variable {settings : Settings} {raw root : Json} {source : Text} {bytes : Nat}

theorem load_of_deep (env : Json.Envelope raw source root) (size : source.utf8Size? = some bytes)
    (small : bytes ≤ settings.maxSourceBytes) (solid : root ≠ .null)
    (deep : settings.maxDepth < root.height) :
    load settings raw = .error (.tooDeep root.height settings.maxDepth) :=
  (load_of_small env size small).trans (loadTree_of_deep (env.kind.resolve_right solid) deep)

/-- A document within the limit on its source is too deep only for the height of its tree: all that can be
    wrong with a tree within the limit is a fault of one of its slots. -/
theorem deep_of_load_eq_tooDeep (env : Json.Envelope raw source root)
    (size : source.utf8Size? = some bytes) (small : bytes ≤ settings.maxSourceBytes) {depth : Nat}
    {limit : Int} (failed : load settings raw = .error (.tooDeep depth limit)) :
    root ≠ .null ∧ settings.maxDepth < root.height := by
  by_contra within
  have shallow : root ≠ .null → (root.height : Int) ≤ settings.maxDepth := by
    intro solid
    exact Int.not_lt.1 fun deep => within ⟨solid, deep⟩
  have fault := failure?_load env size small shallow
  rw [failed] at fault
  obtain ⟨slot, -, own⟩ := List.exists_of_findSome?_eq_some fault.symm
  have unrecorded := record?_of_ownFault? own
  cases unrecorded

/-- **The limit on the depth is exact.**  What the work list measures of a raw root is its height: one more
    than the greatest height among the objects of its `children`, if that is an array, and one if there are
    none or no array.  Take any document with an envelope whose source is within its limit, whatever else
    may be wrong with its nodes.  It is refused for its depth, with the height and the limit, exactly if it
    has a root and the height of the root is above the limit.  And if it loads and has a root, there is a
    tree, and it is as high as the raw root, so it is not deeper than the limit. -/
theorem tooDeep_iff_height :
    (∀ fields, (Json.obj fields).depth = (Json.obj fields).height
      ∧ (∀ items, Json.lookup "children" fields = some (.arr items) →
        (Json.obj fields).height
          = ((items.filter Json.isObject).map Json.height).foldr max 0 + 1)
      ∧ ((∀ items, Json.lookup "children" fields ≠ some (.arr items)) →
        (Json.obj fields).height = 1))
    ∧ ∀ (settings : Settings) (raw root : Json) (source : Text) (bytes : Nat),
      Contract.astDocument.accepts raw = true →
      raw.get? "source" = some (.str source) → raw.get? "ast" = some root →
      source.utf8Size? = some bytes → bytes ≤ settings.maxSourceBytes →
      ((∃ e, load settings raw = .error e
          ∧ e.message = some ("AST nesting exceeds the maximum allowed depth." : Text))
        ↔ root ≠ .null ∧ settings.maxDepth < root.height)
      ∧ (root ≠ .null → settings.maxDepth < root.height →
        load settings raw = .error (.tooDeep root.height settings.maxDepth))
      ∧ ∀ d, load settings raw = .ok d → (root = .null → d.root = none)
        ∧ (root ≠ .null → ∃ n, d.root = some n
          ∧ n.height = root.height ∧ n.height ≤ settings.maxDepth) := by
  constructor
  · intro fields
    refine ⟨Json.depth_eq_height _, ?_, ?_⟩
    · intro items listed
      rw [Json.height_eq, Json.rawChildren, Json.childItems_eq_of_lookup listed]
    · intro unlisted
      -- what has a child has an array of them
      have childless : (Json.obj fields).childItems = [] := by
        rw [List.eq_nil_iff_forall_not_mem]
        intro c hc
        obtain ⟨_, same, listed⟩ := Json.exists_lookup_of_mem_childItems hc
        cases same
        exact unlisted _ listed
      rw [Json.height_eq, Json.rawChildren, childless]
      rfl
  · intro settings raw root source bytes accepted hs hr size small
    obtain ⟨source', root', env⟩ := Json.accepts_astDocument_iff.1 accepted
    obtain rfl := Json.str.inj (Option.some.inj (env.source_eq.symm.trans hs))
    obtain rfl := Option.some.inj (env.root_eq.symm.trans hr)
    refine ⟨⟨?_, ?_⟩, ?_, ?_⟩
    · rintro ⟨e, failed, message⟩
      obtain ⟨depth, limit, rfl⟩ := LoadError.message_eq_iff.1 message
      exact deep_of_load_eq_tooDeep env size small failed
    · rintro ⟨solid, deep⟩
      exact ⟨_, load_of_deep env size small solid deep, rfl⟩
    · intro solid deep
      exact load_of_deep env size small solid deep
    · intro d loaded
      obtain ⟨-, empty, filled⟩ := root_of_load env loaded
      refine ⟨empty, fun solid => ?_⟩
      obtain ⟨n, rooted, built⟩ := filled solid
      have same := height_of_build built
      refine ⟨n, rooted, same, ?_⟩
      by_contra above
      have deep : settings.maxDepth < root'.height := by omega
      rw [load_of_deep env size small solid deep] at loaded
      cases loaded

end Limit

/-- A pair without a value, below it an array that lies outside the source, and below that another node. -/
def sunkenNode : Json :=
  Example.node "pair" 0 1 [Example.node "array" 7 9 [.str "x", Example.node "int" 0 1 [.int 1]]]

/-- The document of that pair. -/
def sunkenDocument : Json := .obj [("source", .str "1"), ("ast", sunkenNode)]

/-- A list in a list in a list. -/
def nestedList : Json :=
  Example.node "array" 0 6 [Example.node "array" 1 5 [Example.node "array" 2 4 []]]

/-- The document of that list. -/
def nestedDocument : Json := .obj [("source", .str "[[[]]]"), ("ast", nestedList)]

/-- With room for two levels the third is what is wrong with the first document; with room for three it is
    the pair.  The second document is as high and loads. -/
theorem tooDeep_iff_height_sunkenNode :
    load { maxDepth := 2 } sunkenDocument = .error (.tooDeep 3 2)
    ∧ load { maxDepth := 3 } sunkenDocument = .error .pairArity
    ∧ ∃ d n, load { maxDepth := 3 } nestedDocument = .ok d ∧ d.root = some n ∧ n.height = 3 := by
  have sunken : sunkenNode.height = 3 := by
    rw [← Json.depth_eq_height]
    rfl
  have nested : nestedList.height = 3 := by
    rw [← Json.depth_eq_height]
    rfl
  obtain ⟨-, deep, -⟩ := tooDeep_iff_height.2 { maxDepth := 2 } sunkenDocument sunkenNode "1" 1
    (by decide) rfl rfl (by decide) (by decide)
  have refused := deep nofun (by rw [sunken]; decide)
  rw [sunken] at refused
  have loads : ∃ d, load { maxDepth := 3 } nestedDocument = .ok d := ⟨_, rfl⟩
  obtain ⟨d, loaded⟩ := loads
  obtain ⟨-, -, built⟩ := tooDeep_iff_height.2 { maxDepth := 3 } nestedDocument nestedList "[[[]]]" 6
    (by decide) rfl rfl (by decide) (by decide)
  obtain ⟨n, rooted, high, -⟩ := (built d loaded).2 nofun
  exact ⟨refused, rfl, d, n, loaded, rooted, high.trans nested⟩

end Document

end NegationLint
