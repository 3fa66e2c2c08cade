/-
  The walk reads the raw tree.

  Two recursions of different shape meet here.  The builder follows the raw tree, drops what is no
  node and splits a call into receiver, method and arguments; the walk keeps a stack and puts the
  receiver in front of the arguments again.  Nothing is lost, doubled or moved between them:

  1. `Json.objects` — the object nodes of a raw tree in pre-order, by the `children` arrays alone;
  2. `Represents` — what a node of the tree has in common with the object it was built from;
  3. `slotsAmong_eq_filter` — below a node that builds, the slots are the children that are objects,
     so the tags no longer matter;
  4. `forall₂_walkAt` — THE CRUX, by induction on the raw tree: node by node, the pre-order of what is
     built represents the objects of the raw tree;
  5. `walk_represents` — the same for the walk of every document that loads.
-/
import NegationLint.Proofs.Loading

namespace NegationLint

namespace Json

/-! ## The objects of a raw tree -/

/-- The object nodes of a raw tree in pre-order: the value itself, then those of its children; none
    if the value is no object. -/
def objects (v : Json) : List Json :=
  if v.isObject then v :: v.childItems.attach.flatMap fun c => objects c.1 else []
termination_by sizeOf v
decreasing_by exact sizeOf_lt_of_mem_childItems c.2

theorem objects_of_not_isObject {v : Json} (h : v.isObject = false) : v.objects = [] := by
  rw [objects, h]
  rfl

theorem objects_of_isObject {v : Json} (h : v.isObject = true) :
    v.objects = v :: v.rawChildren.flatMap objects := by
  have attached : (v.childItems.attach.flatMap fun c => objects c.1)
      = v.childItems.flatMap objects := by
    rw [List.flatMap_def, List.attach_map_val, List.flatMap_def]
  -- what is no object has no objects, so it may as well be left out
  have dropped (items : List Json) :
      items.flatMap objects = (items.filter isObject).flatMap objects := by
    induction items with
    | nil => rfl
    | cons c items ih =>
      rw [List.flatMap_cons, List.filter_cons, ih]
      cases hc : c.isObject with
      | true => rfl
      | false =>
        rw [objects_of_not_isObject hc]
        rfl
  rw [objects, if_pos h, attached, dropped]
  rfl

/-! ## Slots of what builds -/

/-- If the form of a node's children is right and all of its slots are objects, then its slots are just
    the objects among its children. -/
theorem slotsAmong_eq_filter {kind : NodeKind} {items : List Json}
    (form : formFault? kind items = none)
    (objects : ∀ c ∈ slotsAmong kind items, c.isObject = true) :
    slotsAmong kind items = items.filter isObject := by
  have all (listed : slotsAmong kind items = items) :
      slotsAmong kind items = items.filter isObject := by
    rw [listed, List.filter_eq_self.2 fun c hc => objects c (listed.symm ▸ hc)]
  cases hasForm_of_formFault?_eq_none form with
  | send receiver method arguments =>
    have args : arguments.filter isObject = arguments :=
      List.filter_eq_self.2 fun c hc => objects c (List.mem_append_right _ hc)
    -- the receiver's slot holds null or an object, so to be there is to be an object
    have first : [receiver].filter (!·.isNull) = [receiver].filter isObject := by
      cases hr : receiver.isNull with
      | true => cases receiver <;> first | rfl | cases hr
      | false =>
        have := objects receiver (List.mem_append_left _ (by simp [hr]))
        simp [hr, this]
    show [receiver].filter (!·.isNull) ++ arguments = _
    rw [first, List.filter_cons, List.filter_cons, List.filter_cons, args]
    cases receiver.isObject <;> rfl
  | hash => exact all rfl
  | pair => exact all rfl
  | array => exact all rfl
  | sym => rfl
  | str => rfl
  | other => rfl

end Json

namespace Document

open Json (Spells nodeFault? formFault? slotsAmong)

/-! ## What building gives -/

theorem wellFormed_of_build_eq_ok {b : Buffer} {v : Json} {n : Node} (h : build b v = .ok n) :
    ∀ slot ∈ v.slots, Json.WellFormed b.size slot := by
  have none := failure?_build b v
  rw [h] at none
  exact List.findSome?_eq_none_iff.1 none.symm

/-- All that a build that succeeds can say of its node: the value spells a raw node without a fault,
    and the node is made, at the raw node's place, of the builds of its object children in order. -/
theorem build_eq_ok {b : Buffer} {v : Json} {n : Node} (h : build b v = .ok n) :
    ∃ fields r below, v = .obj fields ∧ Spells fields r ∧ nodeFault? b.size r = none
      ∧ List.Forall₂ (fun c k => build b c = .ok k) v.rawChildren below
      ∧ Assembled r.tag (siteOf b r) below n := by
  have wellFormed := wellFormed_of_build_eq_ok h
  -- the value itself is its first slot, so it spells a node, and that node has no fault
  rw [Json.slots_eq] at wellFormed
  obtain ⟨fields, r, rfl, spelled, own⟩ :=
    Json.wellFormed_iff.1 (wellFormed v List.mem_cons_self)
  obtain ⟨ordered, inside, integral, form⟩ := Json.nodeFault?_eq_none_iff.1 own
  -- the slots below are well formed as well, so they are objects, and all objects there are
  have objects : ∀ c ∈ slotsAmong (NodeKind.ofTag r.tag) r.children, c.isObject = true := by
    intro c hc
    rw [← slotsBelow_of_spells spelled] at hc
    refine Json.isObject_of_wellFormed (wellFormed c (List.mem_cons_of_mem _ ?_))
    rw [List.mem_flatMap]
    exact ⟨c, hc, by rw [Json.slots_eq]; exact List.mem_cons_self⟩
  have children : (Json.obj fields).rawChildren = slotsAmong (NodeKind.ofTag r.tag) r.children := by
    rw [Json.rawChildren, Json.childItems_eq_of_lookup spelled.children,
      Json.slotsAmong_eq_filter form objects]
  obtain ⟨make, hmake, assembled⟩ := assemble_of_form form (siteOf b r) (build b)
  rw [build_of_spells b spelled, if_neg (by omega), integral, if_neg (by simp), hmake] at h
  cases hbelow : (slotsAmong (NodeKind.ofTag r.tag) r.children).mapM (build b) with
  | error e =>
    rw [hbelow] at h
    cases h
  | ok below =>
    rw [hbelow] at h
    obtain rfl := Except.ok.inj h
    have built := mapM_eq_ok_iff.1 hbelow
    refine ⟨fields, r, below, rfl, spelled, own, ?_, assembled below built.length_eq.symm⟩
    rw [children]
    exact built

/-! ## Node by node -/

/-- The node stands for the raw object in a source: it has the shape that the object's tag selects, and
    the tag itself if that is no shape of its own; it has the object's two offsets, which lie inside
    the source in the right order; and its text is the piece between them, whole. -/
structure Represents (source : Text) (v : Json) (n : Node) : Prop where
  kind_eq : ∃ tag, v.get? "type" = some (.str tag) ∧ n.kind = NodeKind.ofTag tag
    ∧ ∀ s t cs, n = .other s t cs → t = tag
  offsets_eq : ∃ loc, v.get? "loc" = some loc ∧ loc.get? "begin" = some (.int n.span.begin)
    ∧ loc.get? "end" = some (.int n.span.stop)
  begin_nonneg : 0 ≤ n.span.begin
  begin_le_stop : n.span.begin ≤ n.span.stop
  stop_le_length : n.span.stop ≤ source.length
  source_eq : n.source = source.slice n.span.begin n.span.stop
  length_source : (n.source.length : Int) = n.span.stop - n.span.begin

theorem eq_int_of_isInteger {w : Number} {k : Int} (h : w.integer? = some k)
    (hw : w.isInteger = true) : Json.num w = .int k := by
  cases w with
  | int n =>
    obtain rfl := Option.some.inj h
    rfl
  | _ => cases hw

theorem represents_of_spells {source : Text} {fields : List (Text × Json)} {r : RawNode}
    {below : List Node} {n : Node} (spelled : Spells fields r)
    (own : nodeFault? source.length r = none)
    (assembled : Assembled r.tag (siteOf (Buffer.ofText source) r) below n) :
    Represents source (.obj fields) n := by
  obtain ⟨ordered, inside, integral, -⟩ := Json.nodeFault?_eq_none_iff.1 own
  obtain ⟨ht, -, ⟨loc, first, last, hl, hb, he, hfirst, hlast, hint, -⟩, -, -, -, -, begin₀, -⟩ :=
    spelled
  -- the node stands where the raw node says
  have begin_eq : n.span.begin = r.begin := by
    show n.site.span.begin = r.begin
    rw [assembled.site_eq]
    rfl
  have stop_eq : n.span.stop = r.stop := by
    show n.site.span.stop = r.stop
    rw [assembled.site_eq]
    rfl
  have source_eq : n.source = source.slice r.begin r.stop := by
    show n.site.source = source.slice r.begin r.stop
    rw [assembled.site_eq]
    rfl
  rw [integral, eq_comm, Bool.and_eq_true] at hint
  refine ⟨⟨r.tag, ht, assembled.kind_eq, assembled.tag_eq⟩, ⟨.obj loc, hl, ?_, ?_⟩, ?_, ?_, ?_, ?_, ?_⟩
  · rw [begin_eq, ← eq_int_of_isInteger hfirst hint.1]
    exact hb
  · rw [stop_eq, ← eq_int_of_isInteger hlast hint.2]
    exact he
  · rw [begin_eq]
    exact begin₀
  · rw [begin_eq, stop_eq]
    exact ordered
  · rw [stop_eq]
    exact inside
  · rw [begin_eq, stop_eq]
    exact source_eq
  · rw [begin_eq, stop_eq, source_eq]
    exact Text.length_slice begin₀ ordered inside

/-! ## The whole walk -/

theorem forall₂_siblings {α : Type} {R : α → Node → Prop} {xs : List α} {ns : List Node}
    (h : List.Forall₂ R xs ns) (position : List Nat) (first : Nat) :
    List.Forall₂ (fun x l => R x l.node) xs (Located.siblings position first ns) := by
  induction h generalizing first with
  | nil => exact .nil
  | cons here rest ih => exact .cons here (ih (first + 1))

/-- **The crux.**  What a raw tree builds to, in pre-order, represents the objects of the raw tree, in
    pre-order.  By induction on the raw tree: the two roots agree, and then the children, which are
    the object children of the raw node one by one. -/
theorem forall₂_walkAt (source : Text) (v : Json) {n : Node}
    (h : build (Buffer.ofText source) v = .ok n) (position : List Nat) :
    List.Forall₂ (fun w l => Represents source w l.node) v.objects (n.walkAt position) := by
  induction v using Json.childInduction generalizing n position with
  | step v ih =>
    obtain ⟨fields, r, below, rfl, spelled, own, built, assembled⟩ := build_eq_ok h
    rw [Json.objects_of_isObject rfl, Node.walkAt_eq, Node.walkAll_eq, assembled.children_eq]
    refine .cons (represents_of_spells spelled own assembled) ?_
    -- a child's build and its place among the raw children are both needed below it
    have children := forall₂_siblings built position 0
    have listed : List.Forall₂ (fun c l => c ∈ (Json.obj fields).rawChildren
        ∧ build (Buffer.ofText source) c = .ok l.node)
        (Json.obj fields).rawChildren (Located.siblings position 0 below) :=
      (List.forall₂_and_left _ _).2 ⟨fun c hc => hc, children⟩
    refine List.rel_flatMap listed fun c l hc => ?_
    exact ih c (Json.mem_childItems_of_mem_rawChildren hc.1) hc.2 l.position

/-- **The walk reads the raw tree.**  The nodes of a document that loads, in the order of the walk,
    represent the objects of the raw tree, in pre-order, one each; an empty file has none. -/
theorem walk_represents {settings : Settings} {raw : Json} {d : Document}
    (h : load settings raw = .ok d) :
    ∃ source root, raw.get? "source" = some (.str source) ∧ raw.get? "ast" = some root
      ∧ d.source = source
      ∧ List.Forall₂ (fun v l => Represents source v l.node) root.objects d.walk
      ∧ (root = .null → d.walk = []) := by
  obtain ⟨source, root, ⟨hs, hr, -⟩, hb, ⟨rfl, hn⟩ | ⟨n, hn, built⟩⟩ := load_eq_ok h
  · have empty := walk_of_root_eq_none hn
    refine ⟨source, .null, hs, hr, source_of_buffer_eq hb, ?_, fun _ => empty⟩
    rw [empty, Json.objects_of_not_isObject rfl]
    exact .nil
  · refine ⟨source, root, hs, hr, source_of_buffer_eq hb, ?_, ?_⟩
    · rw [walk_of_root_eq_some hn, n.walk_eq]
      exact forall₂_walkAt source root built []
    · -- null is no object, and only an object builds
      rintro rfl
      cases built

/-- A call on a receiver, with a symbol and a list of one number as arguments.  The receiver keeps its
    name and the number its value as children that are no nodes. -/
def chainedCall : Json := .obj [("source", .str "x.f(:a, [1])"),
  ("ast", Example.node "send" 0 12 [Example.node "lvar" 0 1 [.str "x"], .str "f",
    Example.symbol 4 6 "a", Example.node "array" 8 11 [Example.node "int" 9 10 [.int 1]]])]

/-- The walk goes from the call to the receiver and then through the arguments. -/
theorem walk_represents_chainedCall :
    ∃ d, load .standard chainedCall = .ok d
      ∧ d.walk.map (·.node.kind) = [.send, .other, .sym, .array, .other]
      ∧ ∃ source root, chainedCall.get? "source" = some (.str source)
        ∧ chainedCall.get? "ast" = some root ∧ d.source = source
        ∧ List.Forall₂ (fun v l => Represents source v l.node) root.objects d.walk
        ∧ (root = .null → d.walk = []) := by
  have loads : ∃ d, load .standard chainedCall = .ok d
      ∧ d.walk.map (·.node.kind) = [.send, .other, .sym, .array, .other] := ⟨_, rfl, rfl⟩
  obtain ⟨d, hd, kinds⟩ := loads
  exact ⟨d, hd, kinds, walk_represents hd⟩

end Document

end NegationLint
