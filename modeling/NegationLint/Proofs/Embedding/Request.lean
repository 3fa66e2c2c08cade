/-
  A text around a source: requests and documents.

  A request whose source stands inside a longer text has the same raw tree, with the length of the text
  in front added to every offset.

  1. `Json.shifted` — a raw tree with a number added to the two offsets of every raw node;
  2. `Json.embedded` — a request with a text in front of its source and another one behind it;
  3. `Spells.shifted` — a shifted object spells the shifted node, as long as the offsets are integers;
  4. `build_embedded` — THE CRUX, by induction on the raw tree: what builds from a source builds from the
     longer text, and comes out moved;
  5. `load_embedded` — a document that loads does so in a longer text that is not too large.
-/
import NegationLint.Proofs.Embedding.Moved
import NegationLint.Proofs.Reading

namespace NegationLint

namespace Json

/-! ## Raw trees -/

/-- An offset with `n` added. -/
def shiftedOffset (n : Int) : Json → Json
  | .num (.int k) => .int (k + n)
  | v => v

/-- What becomes of a field of a place when `n` is added to both offsets. -/
def placeField (n : Int) (key : Text) (v : Json) : Json :=
  if key = "begin" ∨ key = "end" then v.shiftedOffset n else v

/-- The place of a raw node with `n` added to both of its offsets. -/
def shiftedPlace (n : Int) : Json → Json
  | .obj fields => .obj (fields.map fun (key, v) => (key, v.placeField n key))
  | v => v

mutual

/-- A raw tree with `n` added to every offset. -/
def shifted (n : Int) : Json → Json
  | .obj fields => .obj (shiftedFields n fields)
  | v => v

/-- The fields of a raw node with `n` added to every offset of the tree. -/
def shiftedFields (n : Int) : List (Text × Json) → List (Text × Json)
  | [] => []
  | (key, .arr items) :: fields =>
    (key, .arr (if key = "children" then shiftedItems n items else items)) :: shiftedFields n fields
  | (key, v) :: fields =>
    (key, if key = "loc" then v.shiftedPlace n else v) :: shiftedFields n fields

/-- Raw trees with `n` added to every offset. -/
def shiftedItems (n : Int) : List Json → List Json
  | [] => []
  | v :: vs => shifted n v :: shiftedItems n vs

end

/-! ## Requests -/

/-- A source with `p` in front and `q` behind. -/
def surrounded (p q : Text) : Json → Json
  | .str source => .str (p ++ (source ++ q))
  | v => v

/-- What becomes of a field of a request when `p` and `q` stand around its source. -/
def requestField (p q key : Text) (v : Json) : Json :=
  if key = "source" then v.surrounded p q
  else if key = "ast" then v.shifted p.length
  else v

/-- A request with `p` in front of its source and `q` behind it, and its tree shifted to match. -/
def embedded (p q : Text) : Json → Json
  | .obj fields => .obj (fields.map fun (key, v) => (key, v.requestField p q key))
  | v => v

/-! ## Fields -/

theorem hasOnly_map (change : Text → Json → Json) {keys : List Text} {fields : List (Text × Json)}
    (h : HasOnly keys fields) : HasOnly keys (fields.map fun (k, v) => (k, change k v)) := by
  intro f hf
  obtain ⟨⟨k, v⟩, hkv, rfl⟩ := List.mem_map.1 hf
  exact h (k, v) hkv

/-- What becomes of a field of a raw node. -/
def shiftedUnder (n : Int) (key : Text) : Json → Json
  | .arr items => .arr (if key = "children" then items.map (shifted n) else items)
  | v => if key = "loc" then v.shiftedPlace n else v

theorem shiftedItems_eq_map (n : Int) (items : List Json) :
    shiftedItems n items = items.map (shifted n) := by
  induction items with
  | nil => rfl
  | cons v vs ih => rw [shiftedItems, ih, List.map_cons]

theorem shiftedFields_eq_map (n : Int) (fields : List (Text × Json)) :
    shiftedFields n fields = fields.map fun (key, v) => (key, v.shiftedUnder n key) := by
  induction fields with
  | nil => rfl
  | cons f fields ih =>
    obtain ⟨key, v⟩ := f
    cases v <;> simp only [shiftedFields, shiftedUnder, shiftedItems_eq_map, ih, List.map_cons]

theorem shifted_obj (n : Int) (fields : List (Text × Json)) :
    (Json.obj fields).shifted n = .obj (fields.map fun (key, v) => (key, v.shiftedUnder n key)) := by
  rw [shifted, shiftedFields_eq_map]

section Kinds

variable (n : Int) (v : Json)

theorem isObject_shifted : (v.shifted n).isObject = v.isObject := by
  cases v <;> rfl

theorem isArray_shifted : (v.shifted n).isArray = v.isArray := by
  cases v <;> rfl

theorem isNull_shifted : (v.shifted n).isNull = v.isNull := by
  cases v <;> rfl

theorem kind_shifted : JsonKind.of (v.shifted n) = JsonKind.of v := by
  cases v <;> rfl

theorem childItems_shifted : (v.shifted n).childItems = v.childItems.map (shifted n) := by
  cases v with
  | obj fields =>
    rw [shifted_obj, childItems, childItems, get?, get?, lookup_map]
    cases lookup "children" fields with
    | none => rfl
    | some w => cases w <;> rfl
  | _ => rfl

theorem rawChildren_shifted : (v.shifted n).rawChildren = v.rawChildren.map (shifted n) := by
  have objects : isObject ∘ shifted n = isObject := funext fun c => isObject_shifted n c
  rw [rawChildren, rawChildren, childItems_shifted, List.filter_map, objects]

/-- A shifted tree is as high as it was. -/
theorem height_shifted : (v.shifted n).height = v.height := by
  induction v using childInduction with
  | step v ih =>
    have heights : (v.rawChildren.map (shifted n)).map height = v.rawChildren.map height := by
      rw [List.map_map]
      exact List.map_congr_left fun c hc => ih c (mem_childItems_of_mem_rawChildren hc)
    rw [height_eq, height_eq, rawChildren_shifted, heights]

end Kinds

end Json

/-! ## Raw nodes -/

/-- A raw node with `n` added to every offset of its tree. -/
def RawNode.shifted (n : Int) (r : RawNode) : RawNode :=
  { r with children := r.children.map (Json.shifted n), begin := r.begin + n, stop := r.stop + n }

namespace Json

/-- An integer stays one and grows by `n`. -/
theorem shiftedOffset_of_isInteger (n : Int) {w : Number} {k : Int} (whole : w.integer? = some k)
    (integral : w.isInteger = true) : (Json.num w).shiftedOffset n = .num (.int (k + n)) := by
  cases w with
  | int m =>
    obtain rfl := Option.some.inj whole
    rfl
  | _ => cases integral

/-- The shifted object spells the shifted node. -/
theorem Spells.shifted {fields : List (Text × Json)} {r : RawNode} (h : Spells fields r)
    (integral : r.integral = true) (n : Nat) :
    Spells (fields.map fun (key, v) => (key, v.shiftedUnder n key)) (r.shifted n) := by
  obtain ⟨ht, hc, ⟨loc, first, last, hl, hb, he, hfirst, hlast, hint, honly⟩, only,
    least, most, noArray, begin₀, stop₀⟩ := h
  rw [integral, eq_comm, Bool.and_eq_true] at hint
  refine ⟨?_, ?_, ⟨_, .int (r.begin + n), .int (r.stop + n), ?_, ?_, ?_, rfl, rfl, integral,
    hasOnly_map (placeField n) honly⟩, hasOnly_map (shiftedUnder n) only, least, most, ?_, ?_, ?_⟩
  · rw [lookup_map, ht]
    rfl
  · rw [lookup_map, hc]
    rfl
  · rw [lookup_map, hl]
    rfl
  · rw [lookup_map, hb, ← shiftedOffset_of_isInteger n hfirst hint.1]
    rfl
  · rw [lookup_map, he, ← shiftedOffset_of_isInteger n hlast hint.2]
    rfl
  · intro c hc
    obtain ⟨w, hw, rfl⟩ := List.mem_map.1 hc
    rw [isArray_shifted]
    exact noArray w hw
  · show 0 ≤ r.begin + n
    omega
  · show 0 ≤ r.stop + n
    omega

end Json

namespace Document

open Json (Spells formFault?)

/-! ## Building -/

section Assembling

variable {p : Text} {f g : Json → Except LoadError Node}

/-- Builds that come out moved one by one come out moved all together. -/
theorem mapM_moved {items : List Json} {ns : List Node}
    (below : ∀ c ∈ items, ∀ n, f c = .ok n → g (c.shifted p.length) = .ok (n.moved p))
    (h : items.mapM f = .ok ns) :
    (items.map (Json.shifted p.length)).mapM g = .ok (ns.map (Node.moved p)) := by
  rw [mapM_eq_ok_iff, List.forall₂_map_left_iff, List.forall₂_map_right_iff]
  have listed := (List.forall₂_and_left _ _).2 ⟨fun c hc => hc, mapM_eq_ok_iff.1 h⟩
  exact listed.imp fun c n hc => below c hc.1 n hc.2

/-- What is made of builds is made of their moved counterparts, if it comes out moved. -/
theorem map_mapM_moved {items : List Json} {n : Node} {make make' : List Node → Node}
    (below : ∀ c ∈ items, ∀ n, f c = .ok n → g (c.shifted p.length) = .ok (n.moved p))
    (commutes : ∀ ns, (make ns).moved p = make' (ns.map (Node.moved p)))
    (h : make <$> items.mapM f = .ok n) :
    make' <$> (items.map (Json.shifted p.length)).mapM g = .ok (n.moved p) := by
  cases built : items.mapM f with
  | error e =>
    rw [built] at h
    cases h
  | ok ns =>
    rw [built] at h
    obtain rfl := Except.ok.inj h
    rw [mapM_moved below built, commutes]
    rfl

theorem assemble_send_moved {tag : Text} (hk : NodeKind.ofTag tag = .send) {site : Site}
    {receiver : Json} {method : Text} {arguments : List Json} {n : Node}
    (first : ∀ n, f receiver = .ok n → g (receiver.shifted p.length) = .ok (n.moved p))
    (rest : ∀ c ∈ arguments, ∀ n, f c = .ok n → g (c.shifted p.length) = .ok (n.moved p))
    (h : assemble tag site ((receiver :: .str method :: arguments).map fun c => (c, f c)) = .ok n) :
    assemble tag (site.moved p) ((receiver.shifted p.length :: .str method
      :: arguments.map (Json.shifted p.length)).map fun c => (c, g c)) = .ok (n.moved p) := by
  rw [assemble_send hk] at h ⊢
  rw [Json.isNull_shifted]
  split at h
  · rename_i null
    rw [if_pos null]
    refine map_mapM_moved rest (fun ns => ?_) h
    rw [Node.moved, Node.movedAll_eq_map]
  · rename_i there
    rw [if_neg there]
    cases hr : f receiver with
    | error e =>
      rw [hr] at h
      cases h
    | ok r =>
      rw [hr] at h
      rw [first r hr]
      have commutes (ns : List Node) : (Node.send site (some r) method ns).moved p
          = .send (site.moved p) (some (r.moved p)) method (ns.map (Node.moved p)) := by
        rw [Node.moved, Node.movedAll_eq_map]
      exact map_mapM_moved rest commutes h

theorem assemble_pair_moved {tag : Text} (hk : NodeKind.ofTag tag = .pair) {site : Site}
    {key value : Json} {n : Node}
    (first : ∀ n, f key = .ok n → g (key.shifted p.length) = .ok (n.moved p))
    (second : ∀ n, f value = .ok n → g (value.shifted p.length) = .ok (n.moved p))
    (h : assemble tag site [(key, f key), (value, f value)] = .ok n) :
    assemble tag (site.moved p) [(key.shifted p.length, g (key.shifted p.length)),
      (value.shifted p.length, g (value.shifted p.length))] = .ok (n.moved p) := by
  unfold assemble at h ⊢
  rw [hk] at h ⊢
  dsimp only at h ⊢
  cases hkey : f key with
  | error e =>
    rw [hkey] at h
    cases h
  | ok k =>
    cases hvalue : f value with
    | error e =>
      rw [hkey, hvalue] at h
      cases h
    | ok v =>
      rw [hkey, hvalue] at h
      obtain rfl := Except.ok.inj h
      rw [first k hkey, second v hvalue]
      rfl

/-- What a tag makes of its children, it makes of the shifted children at the moved place, moved.  By
    the form of the children: with any other form nothing is made. -/
theorem assemble_moved {tag : Text} {site : Site} {items : List Json} {n : Node}
    (below : ∀ c ∈ items, ∀ n, f c = .ok n → g (c.shifted p.length) = .ok (n.moved p))
    (h : assemble tag site (items.map fun c => (c, f c)) = .ok n) :
    assemble tag (site.moved p) ((items.map (Json.shifted p.length)).map fun c => (c, g c))
      = .ok (n.moved p) := by
  have form : formFault? (NodeKind.ofTag tag) items = none := by
    cases fault : formFault? (NodeKind.ofTag tag) items with
    | none => rfl
    | some e =>
      rw [assemble_of_formFault fault] at h
      cases h
  have form := Json.hasForm_of_formFault?_eq_none form
  generalize hk : NodeKind.ofTag tag = kind at form
  cases form with
  | send receiver method arguments =>
    refine assemble_send_moved hk (below receiver (by simp)) (fun c hc => below c ?_) h
    exact List.mem_cons_of_mem _ (List.mem_cons_of_mem _ hc)
  | pair key value =>
    exact assemble_pair_moved hk (below key (by simp)) (below value (by simp)) h
  | sym value =>
    unfold assemble at h ⊢
    rw [hk] at h ⊢
    obtain rfl := Except.ok.inj h
    rfl
  | str value =>
    unfold assemble at h ⊢
    rw [hk] at h ⊢
    obtain rfl := Except.ok.inj h
    rfl
  | hash =>
    unfold assemble at h ⊢
    rw [hk, collect_map] at h ⊢
    refine map_mapM_moved below (fun ns => ?_) h
    rw [Node.moved, Node.movedAll_eq_map]
  | array =>
    unfold assemble at h ⊢
    rw [hk, collect_map] at h ⊢
    refine map_mapM_moved below (fun ns => ?_) h
    rw [Node.moved, Node.movedAll_eq_map]
  | other =>
    have objects : Json.isObject ∘ Json.shifted p.length = Json.isObject :=
      funext fun c => Json.isObject_shifted p.length c
    have kept : ∀ c ∈ items.filter Json.isObject, ∀ n, f c = .ok n
        → g (c.shifted p.length) = .ok (n.moved p) :=
      fun c hc => below c (List.mem_filter.1 hc).1
    unfold assemble at h ⊢
    rw [hk, List.filter_map] at h ⊢
    have h : Node.other site tag <$> collect ((items.filter Json.isObject).map fun c => (c, f c))
        = .ok n := h
    show Node.other (site.moved p) tag <$> collect (((items.map (Json.shifted p.length)).filter
      Json.isObject).map fun c => (c, g c)) = _
    rw [collect_map] at h ⊢
    rw [List.filter_map, objects]
    refine map_mapM_moved kept (fun ns => ?_) h
    rw [Node.moved, Node.movedAll_eq_map]

end Assembling

/-- A raw node stands at the moved place in the longer text. -/
theorem siteOf_embedded (p q : Text) {s : Text} {r : RawNode} (h₀ : 0 ≤ r.begin)
    (h₁ : r.begin ≤ r.stop) (h₂ : r.stop ≤ s.length) :
    siteOf (Buffer.ofText (p ++ (s ++ q))) (r.shifted p.length)
      = (siteOf (Buffer.ofText s) r).moved p := by
  have span := Buffer.span_embedded p q h₀ (Int.le_trans h₁ h₂) r.stop
  have piece := Buffer.slice_embedded p q h₀ h₁ h₂
  show (⟨(Buffer.ofText (p ++ (s ++ q))).span (r.begin + p.length) (r.stop + p.length),
    (p ++ (s ++ q)).slice (r.begin + p.length) (r.stop + p.length)⟩ : Site) = _
  rw [span, piece]
  rfl

/-- **The crux.**  What builds from a source builds from a longer text, and comes out moved.  By induction
    on the raw tree: a node's own checks look at its shifted offsets, and its children come out moved. -/
theorem build_embedded (p q s : Text) (v : Json) {n : Node} (h : build (Buffer.ofText s) v = .ok n) :
    build (Buffer.ofText (p ++ (s ++ q))) (v.shifted p.length) = .ok (n.moved p) := by
  induction v using Json.childInduction generalizing n with
  | step v ih =>
    obtain ⟨fields, r, -, rfl, spelled, own, -, -⟩ := build_eq_ok h
    obtain ⟨ordered, inside, integral, -⟩ := Json.nodeFault?_eq_none_iff.1 own
    have inside : r.stop ≤ s.length := inside
    have begin₀ : 0 ≤ r.begin := spelled.inBounds.2.2.2.1
    have fits : ¬ ((r.shifted p.length).stop < (r.shifted p.length).begin
        ∨ ((Buffer.ofText (p ++ (s ++ q))).size : Int) < (r.shifted p.length).stop) := by
      show ¬ (r.stop + (p.length : Int) < r.begin + p.length
        ∨ ((p ++ (s ++ q)).length : Int) < r.stop + p.length)
      rw [List.length_append, List.length_append]
      omega
    rw [build_of_spells _ spelled, if_neg (by rw [Buffer.size_ofText]; omega), integral,
      if_neg (by simp)] at h
    rw [Json.shifted_obj, build_of_spells _ (spelled.shifted integral p.length), if_neg fits,
      show (r.shifted p.length).integral = true from integral, if_neg (by simp),
      siteOf_embedded p q begin₀ ordered inside]
    refine assemble_moved (fun c hc n built => ih c ?_ built) h
    rw [Json.childItems_eq_of_lookup spelled.children]
    exact hc

/-! ## Loading -/

/-- A document with `p` in front of its source and `q` behind it. -/
def embedded (p q : Text) (d : Document) : Document :=
  ⟨Buffer.ofText (p ++ (d.source ++ q)), d.root.map (Node.moved p)⟩

end Document

namespace Json

section Request

variable (p q : Text) {request root : Json} {source : Text}

theorem get?_embedded (key : Text) :
    (request.embedded p q).get? key = (request.get? key).map (requestField p q key) := by
  cases request with
  | obj fields => exact lookup_map (requestField p q) key fields
  | _ => rfl

theorem Envelope.embedded (h : Envelope request source root) :
    Envelope (request.embedded p q) (p ++ (source ++ q)) (root.shifted p.length) := by
  refine ⟨?_, ?_, ?_⟩
  · rw [get?_embedded, h.source_eq]
    rfl
  · rw [get?_embedded, h.root_eq]
    rfl
  · rcases h.kind with object | rfl
    · left
      rw [isObject_shifted]
      exact object
    · exact Or.inr rfl

/-- A request is accepted with a text around its source exactly if it is accepted without. -/
theorem accepts_lintRequest_embedded :
    Contract.lintRequest.accepts (request.embedded p q) = Contract.lintRequest.accepts request := by
  have kept : ∀ property ∈ ([("source", .anyText), ("ast", .ofKind [.object, .null]),
      ("autocorrect", .boolean), ("path", .text 0 (some 4096))] : List (Text × Schema)),
      ∀ v, property.2.accepts (requestField p q property.1 v) = property.2.accepts v := by
    simp only [List.forall_mem_cons, List.not_mem_nil, false_imp_iff, implies_true, and_true]
    refine ⟨?_, ?_, ?_, ?_⟩
    · intro v
      cases v <;> rfl
    · intro v
      show ([JsonKind.object, .null] : List JsonKind).contains (JsonKind.of (v.shifted p.length)) = _
      rw [kind_shifted]
      rfl
    · intro v
      rfl
    · intro v
      rfl
  cases request with
  | obj fields => exact Schema.accepts_record_map kept
  | _ => rfl

end Request

end Json

namespace Document

/-- **Loading.**  A document that loads does so with a text around its source, if that is not too large. -/
theorem load_embedded {settings : Settings} {raw : Json} {d : Document} {bytes : Nat} (p q : Text)
    (h : load settings raw = .ok d) (size : Text.utf8Size? (p ++ (d.source ++ q)) = some bytes)
    (small : bytes ≤ settings.maxSourceBytes) :
    load settings (raw.embedded p q) = .ok (d.embedded p q) := by
  have done := loads settings raw
  rw [h] at done
  generalize hres : (Except.ok d : Except LoadError Document) = result at done
  cases done with
  | @empty source _ env =>
    obtain rfl := Except.ok.inj hres
    have size : Text.utf8Size? (p ++ (source ++ q)) = some bytes := size
    exact load_of_small (env.embedded p q) size small
  | @tree source root _ env object _ _ shallow =>
    cases built : build (Buffer.ofText source) root with
    | error e =>
      rw [built] at hres
      cases hres
    | ok n =>
      rw [built] at hres
      obtain rfl := Except.ok.inj hres
      have size : Text.utf8Size? (p ++ (source ++ q)) = some bytes := size
      have object : (root.shifted p.length).isObject = true := by
        rw [Json.isObject_shifted]
        exact object
      have shallow : (root.shifted p.length).height ≤ settings.maxDepth := by
        rw [Json.height_shifted]
        exact shallow
      rw [load_of_small (env.embedded p q) size small, loadTree_of_shallow object shallow,
        build_embedded p q source root built]
      rfl
  | _ => cases hres

end Document

end NegationLint
