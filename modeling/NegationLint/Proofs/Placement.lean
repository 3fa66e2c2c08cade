/-
  Where nodes stand.

  The builder places a node by its two offsets and by nothing else: line and column follow from the
  first of them, and both lie inside the source in the right order.

  1. `exists_build_of_mem_walk` — every node of a tree is itself built from some raw value;
  2. `Placed` — the span of the node is the buffer's span between two offsets inside the buffer;
  3. `placed_of_mem_walk` — so it is for every node of a tree that builds, and
     `placed_of_mem_findings` for whatever a run reports.
-/
import NegationLint.Lint
import NegationLint.Proofs.Anchors

namespace NegationLint

/-- The node stands between two offsets of the buffer, in the right order. -/
structure Placed (b : Buffer) (n : Node) : Prop where
  span_eq : n.span = b.span n.span.begin n.span.stop
  begin_nonneg : 0 ≤ n.span.begin
  begin_le_stop : n.span.begin ≤ n.span.stop
  stop_le_size : n.span.stop ≤ b.size

namespace Document

theorem exists_mem_of_forall₂ {α β : Type} {R : α → β → Prop} {xs : List α} {ys : List β}
    (h : List.Forall₂ R xs ys) {y : β} (hy : y ∈ ys) : ∃ x ∈ xs, R x y := by
  induction h with
  | nil => cases hy
  | cons here _ ih =>
    rcases List.mem_cons.1 hy with rfl | hy
    · exact ⟨_, List.mem_cons_self, here⟩
    · obtain ⟨x, hx, related⟩ := ih hy
      exact ⟨x, List.mem_cons_of_mem _ hx, related⟩

/-- Whatever stands below a node that builds has been built as well.  By induction on the raw tree. -/
theorem exists_build_of_mem_walkAt {b : Buffer} (v : Json) {n : Node} (h : build b v = .ok n)
    (position : List Nat) {l : Located} (hl : l ∈ n.walkAt position) :
    ∃ w, build b w = .ok l.node := by
  induction v using Json.childInduction generalizing n position with
  | step v ih =>
    obtain ⟨fields, r, below, rfl, -, -, built, assembled⟩ := build_eq_ok h
    rw [Node.walkAt_eq, Node.walkAll_eq, List.mem_cons, List.mem_flatMap] at hl
    rcases hl with rfl | ⟨child, hchild, hl⟩
    · exact ⟨_, h⟩
    · rw [assembled.children_eq] at hchild
      obtain ⟨i, k, hk, rfl⟩ := Located.mem_siblings.1 hchild
      obtain ⟨c, hc, hck⟩ := exists_mem_of_forall₂ built (List.mem_of_getElem? hk)
      exact ih c (Json.mem_childItems_of_mem_rawChildren hc) hck _ hl

theorem placed_of_build {b : Buffer} {v : Json} {n : Node} (h : build b v = .ok n) : Placed b n := by
  obtain ⟨fields, r, below, rfl, spelled, own, -, assembled⟩ := build_eq_ok h
  obtain ⟨ordered, inside, -, -⟩ := Json.nodeFault?_eq_none_iff.1 own
  have begin₀ : 0 ≤ r.begin := spelled.inBounds.2.2.2.1
  have span : n.span = b.span r.begin r.stop := by
    show n.site.span = _
    rw [assembled.site_eq]
    rfl
  have begins : n.span.begin = r.begin := by rw [span]; rfl
  have ends : n.span.stop = r.stop := by rw [span]; rfl
  refine ⟨?_, ?_, ?_, ?_⟩
  · rw [begins, ends]
    exact span
  all_goals omega

/-- Every node of a document that loads has its place. -/
theorem placed_of_mem_walk {settings : Settings} {raw : Json} {d : Document}
    (h : load settings raw = .ok d) {l : Located} (hl : l ∈ d.walk) : Placed d.buffer l.node := by
  obtain ⟨source, root, -, hb, ⟨-, hn⟩ | ⟨n, hn, built⟩⟩ := load_eq_ok h
  · rw [walk_of_root_eq_none hn] at hl
    cases hl
  · rw [walk_of_root_eq_some hn, n.walk_eq] at hl
    obtain ⟨w, hw⟩ := exists_build_of_mem_walkAt root built [] hl
    rw [hb]
    exact placed_of_build hw

end Document

namespace Lint

/-- A run reports nodes of the document. -/
theorem anchor_mem_walk {settings : Settings} {d : Document} {f : Finding}
    (hf : f ∈ findings settings d) : f.anchor ∈ d.walk := by
  rw [findings] at hf
  split at hf
  · cases hr : d.root with
    | none =>
      rw [hr] at hf
      cases hf
    | some root =>
      rw [hr] at hf
      rw [Document.walk_of_root_eq_some hr]
      have anchor := EnumRule.isAnchor_of_mem_walk (List.mem_map_of_mem hf)
      exact Node.mem_walk.2 anchor.at?
  · cases hf

/-- Whatever a run reports has its place. -/
theorem placed_of_mem_findings {settings : Settings} {raw : Json} {d : Document}
    (h : Document.load settings raw = .ok d) {f : Finding} (hf : f ∈ findings settings d) :
    Placed d.buffer f.anchor.node :=
  Document.placed_of_mem_walk h (anchor_mem_walk hf)

end Lint

end NegationLint
