/-
  Positions.

  A position leads from the root of a tree down to one of its nodes.  The walk lists every node at its
  position and no position twice, so where a node stands decides which node it is:

  1. `Node.childInduction` — what passes from the children of a node to the node holds of every node;
  2. `Node.at?` — the node at a position, if the position leads to one;
  3. `Node.mem_walk` — the walk holds exactly the nodes that positions lead to;
  4. `Node.pairwise_walk` — the positions of the walk ascend, in the lexicographic order;
  5. `Apart` — two positions of which neither leads on to the other, so that nothing stands below both.
-/
import Mathlib.Data.List.Sort
import NegationLint.Tree.Walk

namespace NegationLint

/-! ## Above, below and apart -/

/-- A position comes before all that stands below it. -/
theorem lt_of_below {p r : List Nat} {i : Nat} (below : p ++ [i] <+: r) : p < r := by
  obtain ⟨q, rfl⟩ := below
  have : p ++ [] < p ++ ([i] ++ q) := List.append_left_lt (List.nil_lt_cons i q)
  rwa [List.append_nil, ← List.append_assoc] at this

/-- What stands below one number comes before what stands below a greater one. -/
theorem lt_of_below_of_below {p r s : List Nat} {i j : Nat} (less : i < j) (below : p ++ [i] <+: r)
    (below' : p ++ [j] <+: s) : r < s := by
  obtain ⟨q, rfl⟩ := below
  obtain ⟨q', rfl⟩ := below'
  rw [List.append_assoc, List.append_assoc]
  exact List.append_left_lt (List.cons_lt_cons_iff.2 (Or.inl less))

/-- Neither of two positions leads on to the other. -/
def Apart (p q : List Nat) : Prop := ¬ p <+: q ∧ ¬ q <+: p

/-- Two numbers below the same position. -/
theorem apart_concat {p : List Nat} {i j : Nat} (ne : i ≠ j) : Apart (p ++ [i]) (p ++ [j]) := by
  have distinct : p ++ [i] ≠ p ++ [j] := fun same => ne (by simpa using same)
  constructor
  · intro leads
    exact distinct (leads.eq_of_length (by simp))
  · intro leads
    exact distinct (leads.eq_of_length (by simp)).symm

/-- What stands below a position does not stand below one that is apart from it. -/
theorem Apart.not_below {p q r : List Nat} (h : Apart p q) (below : p <+: r) : ¬ q <+: r := by
  intro other
  rcases List.prefix_or_prefix_of_prefix below other with leads | leads
  · exact h.1 leads
  · exact h.2 leads

namespace Located

/-- Siblings stand at the position of their parent, continued by their own number. -/
theorem mem_siblings {position : List Nat} {first : Nat} {ns : List Node} {l : Located} :
    l ∈ siblings position first ns ↔
      ∃ i n, ns[i]? = some n ∧ l = ⟨position ++ [first + i], n⟩ := by
  induction ns generalizing first with
  | nil => simp [siblings]
  | cons n ns ih =>
    rw [siblings, List.mem_cons, ih]
    constructor
    · rintro (rfl | ⟨i, m, hm, rfl⟩)
      · exact ⟨0, n, rfl, rfl⟩
      · refine ⟨i + 1, m, hm, ?_⟩
        rw [show first + 1 + i = first + (i + 1) by omega]
    · rintro ⟨_ | i, m, hm, rfl⟩
      · obtain rfl := Option.some.inj hm
        exact Or.inl rfl
      · refine Or.inr ⟨i, m, hm, ?_⟩
        rw [show first + 1 + i = first + (i + 1) by omega]

/-- The numbers of siblings ascend. -/
theorem pairwise_siblings (position : List Nat) (first : Nat) (ns : List Node) :
    (siblings position first ns).Pairwise fun a b =>
      ∃ i j, i < j ∧ a.position = position ++ [i] ∧ b.position = position ++ [j] := by
  induction ns generalizing first with
  | nil => exact .nil
  | cons n ns ih =>
    refine .cons ?_ (ih (first + 1))
    intro l hl
    obtain ⟨i, m, -, rfl⟩ := mem_siblings.1 hl
    exact ⟨first, first + 1 + i, by omega, rfl, rfl⟩

theorem apart_siblings (position : List Nat) (first : Nat) (ns : List Node) :
    (siblings position first ns).Pairwise fun a b => Apart a.position b.position := by
  refine (pairwise_siblings position first ns).imp ?_
  rintro a b ⟨i, j, hij, ha, hb⟩
  rw [ha, hb]
  exact apart_concat (Nat.ne_of_lt hij)

theorem nodup_children (l : Located) : l.children.Nodup := by
  refine (apart_siblings l.position 0 l.node.children).imp ?_
  rintro a b apart rfl
  exact apart.1 List.prefix_rfl

/-- Different children of a node are apart. -/
theorem apart_of_mem_children {parent a b : Located} (ha : a ∈ parent.children)
    (hb : b ∈ parent.children) (ne : a ≠ b) : Apart a.position b.position := by
  obtain ⟨i, n, hn, rfl⟩ := mem_siblings.1 ha
  obtain ⟨j, m, hm, rfl⟩ := mem_siblings.1 hb
  refine apart_concat fun same => ne ?_
  obtain rfl : i = j := by omega
  obtain rfl := Option.some.inj (hn.symm.trans hm)
  rfl

end Located

namespace Node

/-! ## Induction on trees -/

theorem size_le_sizeAll_of_mem {c : Node} {ns : List Node} (h : c ∈ ns) : c.size ≤ sizeAll ns := by
  induction ns with
  | nil => cases h
  | cons n ns ih =>
    rw [sizeAll]
    rcases List.mem_cons.1 h with rfl | h
    · omega
    · have := ih h
      omega

theorem size_lt_of_mem_children {c n : Node} (h : c ∈ n.children) : c.size < n.size := by
  rw [size_eq n]
  have := size_le_sizeAll_of_mem h
  omega

/-- **Induction on trees**: what passes from the children of a node to the node holds of all. -/
theorem childInduction {motive : Node → Prop}
    (step : ∀ n, (∀ c ∈ n.children, motive c) → motive n) (n : Node) : motive n :=
  step n fun c _h => childInduction step c
termination_by n.size
decreasing_by exact size_lt_of_mem_children _h

/-! ## The node at a position -/

/-- The node that a position leads to. -/
def at? : List Nat → Node → Option Node
  | [], n => some n
  | i :: position, n => n.children[i]?.bind (at? position)

theorem at?_cons_eq_some_iff {i : Nat} {position : List Nat} {n m : Node} :
    at? (i :: position) n = some m ↔ ∃ c, n.children[i]? = some c ∧ at? position c = some m :=
  Option.bind_eq_some_iff

/-- A longer way goes on from where its beginning leads. -/
theorem at?_append_eq_some_iff {p q : List Nat} {n m : Node} :
    at? (p ++ q) n = some m ↔ ∃ c, at? p n = some c ∧ at? q c = some m := by
  induction p generalizing n with
  | nil =>
    constructor
    · intro h
      exact ⟨n, rfl, h⟩
    · rintro ⟨c, hc, h⟩
      obtain rfl := Option.some.inj hc
      exact h
  | cons i p ih =>
    rw [List.cons_append, at?_cons_eq_some_iff]
    constructor
    · rintro ⟨c, hc, h⟩
      obtain ⟨m', hm', h'⟩ := ih.1 h
      exact ⟨m', at?_cons_eq_some_iff.2 ⟨c, hc, hm'⟩, h'⟩
    · rintro ⟨m', hm', h'⟩
      obtain ⟨c, hc, h⟩ := at?_cons_eq_some_iff.1 hm'
      exact ⟨c, hc, ih.2 ⟨m', h, h'⟩⟩

/-- A position leads to one node: two nodes of a tree that stand at the same position are the same. -/
theorem eq_of_position_eq {n : Node} {a b : Located} (ha : n.at? a.position = some a.node)
    (hb : n.at? b.position = some b.node) (same : a.position = b.position) : a = b := by
  obtain ⟨p, m⟩ := a
  obtain ⟨q, k⟩ := b
  obtain rfl : p = q := same
  obtain rfl : m = k := Option.some.inj (ha.symm.trans hb)
  rfl

/-! ## The walk lists them all -/

/-- The pre-order from a position holds the nodes that continued positions lead to. -/
theorem mem_walkAt {p : List Nat} {n : Node} {l : Located} :
    l ∈ n.walkAt p ↔ ∃ q, l.position = p ++ q ∧ n.at? q = some l.node := by
  induction n using childInduction generalizing p with
  | step n ih =>
    rw [walkAt_eq, walkAll_eq, List.mem_cons, List.mem_flatMap]
    constructor
    · rintro (rfl | ⟨child, hchild, hl⟩)
      · exact ⟨[], (List.append_nil p).symm, rfl⟩
      · obtain ⟨i, c, hc, rfl⟩ := Located.mem_siblings.1 hchild
        obtain ⟨q, hq, hn⟩ := (ih c (List.mem_of_getElem? hc)).1 hl
        refine ⟨i :: q, ?_, at?_cons_eq_some_iff.2 ⟨c, hc, hn⟩⟩
        rw [hq, Nat.zero_add, List.append_assoc]
        rfl
    · rintro ⟨_ | ⟨i, q⟩, hq, hn⟩
      · left
        obtain ⟨position, m⟩ := l
        obtain rfl := Option.some.inj hn
        rw [List.append_nil] at hq
        rw [← hq]
      · right
        obtain ⟨c, hc, hn⟩ := at?_cons_eq_some_iff.1 hn
        refine ⟨⟨p ++ [i], c⟩, Located.mem_siblings.2 ⟨i, c, hc, by rw [Nat.zero_add]⟩, ?_⟩
        refine (ih c (List.mem_of_getElem? hc)).2 ⟨q, ?_, hn⟩
        rw [hq, List.append_assoc]
        rfl

/-- **The walk is complete**: it holds a node at a position exactly if the position leads to the
    node. -/
theorem mem_walk {n : Node} {l : Located} : l ∈ n.walk ↔ n.at? l.position = some l.node := by
  rw [walk_eq, mem_walkAt]
  constructor
  · rintro ⟨q, hq, hn⟩
    rw [hq]
    exact hn
  · intro hn
    exact ⟨l.position, rfl, hn⟩

/-- Positions ascend in pre-order.  By induction on the tree: a node comes before what continues its
    position, and what lies below a child comes before what lies below a later one. -/
theorem pairwise_walkAt (p : List Nat) (n : Node) :
    (n.walkAt p).Pairwise fun a b => a.position < b.position := by
  induction n using childInduction generalizing p with
  | step n ih =>
    rw [walkAt_eq, walkAll_eq, List.pairwise_cons, List.pairwise_flatMap]
    have below {child l : Located} (hl : l ∈ child.node.walkAt child.position) :
        child.position <+: l.position := by
      obtain ⟨q, hq, -⟩ := mem_walkAt.1 hl
      exact ⟨q, hq.symm⟩
    refine ⟨?_, ?_, ?_⟩
    -- the node before everything below it
    · intro l hl
      obtain ⟨child, hchild, hl⟩ := List.mem_flatMap.1 hl
      obtain ⟨i, c, -, rfl⟩ := Located.mem_siblings.1 hchild
      exact lt_of_below (below hl)
    -- inside what lies below one child
    · intro child hchild
      obtain ⟨i, c, hc, rfl⟩ := Located.mem_siblings.1 hchild
      exact ih c (List.mem_of_getElem? hc) _
    -- across two children: the positions part at the children's own numbers
    · refine (Located.pairwise_siblings p 0 n.children).imp ?_
      rintro a b ⟨i, j, hij, ha, hb⟩ l hl m hm
      exact lt_of_below_of_below hij (ha ▸ below hl) (hb ▸ below hm)

/-- **The walk is pre-order**: every position it comes to is greater than those before. -/
theorem pairwise_walk (n : Node) : n.walk.Pairwise fun a b => a.position < b.position := by
  rw [walk_eq]
  exact pairwise_walkAt [] n

/-- The walk comes to the children of every node that it comes to. -/
theorem mem_walk_of_mem_children {n : Node} {l c : Located} (hl : l ∈ n.walk)
    (hc : c ∈ l.children) : c ∈ n.walk := by
  obtain ⟨i, m, hm, rfl⟩ := Located.mem_siblings.1 hc
  rw [mem_walk] at hl ⊢
  refine at?_append_eq_some_iff.2 ⟨l.node, hl, at?_cons_eq_some_iff.2 ⟨m, ?_, rfl⟩⟩
  rw [Nat.zero_add]
  exact hm

/-- Nodes of a tree whose positions ascend come in the order of the walk. -/
theorem sublist_walk {n : Node} {ls : List Located}
    (ascends : ls.Pairwise fun a b => a.position < b.position) (visited : ls ⊆ n.walk) :
    ls.Sublist n.walk := by
  have irrefl : Std.Irrefl fun a b : Located => a.position < b.position :=
    ⟨fun a => List.lt_irrefl a.position⟩
  have antisymm : Std.Antisymm fun a b : Located => a.position < b.position :=
    ⟨fun a b h h' => absurd (List.lt_trans h h') (List.lt_irrefl a.position)⟩
  have once : ls.Nodup := ascends.nodup
  exact List.sublist_of_subperm_of_pairwise (List.subperm_of_subset once visited) ascends
    n.pairwise_walk

end Node

end NegationLint
