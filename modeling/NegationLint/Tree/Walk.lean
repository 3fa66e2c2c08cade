/-
  The nodes of a tree with their positions, in pre-order.

  Two nodes of a tree may agree in everything and still be two nodes.  What tells them apart is
  their POSITION: the list of child numbers that leads to them from the root.  Pre-order is the
  lexicographic order of positions.

  * `Located` — a node at a position;
  * `Located.children` — the nodes right below, each at its own position;
  * `Node.walk` — a node and everything below it, with a STACK of the nodes still to visit: a visited
    node leaves its children on the stack, the first of them on top.  A node is visited once, so the
    number of nodes bounds the visits;
  * `Node.walkAt` — the same by recursion on the tree, every node before its children and the
    children from left to right (`walk_eq`).
-/
import NegationLint.Tree.Node

namespace NegationLint

/-- A node at its position in the tree. -/
structure Located where
  position : List Nat
  node : Node

namespace Located

/-- The node at the root. -/
def root (n : Node) : Located := ⟨[], n⟩

/-- Siblings below `position`, numbered from `first`. -/
def siblings (position : List Nat) (first : Nat) : List Node → List Located
  | [] => []
  | n :: ns => ⟨position ++ [first], n⟩ :: siblings position (first + 1) ns

/-- The nodes right below. -/
def children (l : Located) : List Located := siblings l.position 0 l.node.children

@[simp] theorem map_node_siblings (position : List Nat) (first : Nat) (ns : List Node) :
    (siblings position first ns).map node = ns := by
  induction ns generalizing first with
  | nil => rfl
  | cons n ns ih => simp [siblings, ih]

end Located

namespace Node

/-! ## The walk -/

mutual

/-- The number of nodes of a tree. -/
def size : Node → Nat
  | send _ none _ arguments => sizeAll arguments + 1
  | send _ (some r) _ arguments => size r + sizeAll arguments + 1
  | hash _ entries => sizeAll entries + 1
  | pair _ key value => size key + size value + 1
  | array _ elements => sizeAll elements + 1
  | sym .. => 1
  | str .. => 1
  | other _ _ children => sizeAll children + 1

/-- The number of nodes of several trees. -/
def sizeAll : List Node → Nat
  | [] => 0
  | n :: ns => size n + sizeAll ns

end

/-- The next so many visits of a walk with these nodes on its stack, the top of the stack first.  The
    children of a visited node are pushed from the last to the first. -/
def visit : Nat → List Located → List Located
  | 0, _ => []
  | _ + 1, [] => []
  | visits + 1, l :: stack =>
    l :: visit visits (l.children.reverse.foldl (fun stack c => c :: stack) stack)

/-- The nodes of a tree in the order of their visits. -/
def walk (n : Node) : List Located := visit n.size [Located.root n]

/-! ## Pre-order by recursion on the tree -/

mutual

/-- A node at a position and everything below it, in pre-order. -/
def walkAt (position : List Nat) : Node → List Located
  | send s none m arguments =>
    ⟨position, send s none m arguments⟩ :: walkAll position 0 arguments
  | send s (some r) m arguments =>
    ⟨position, send s (some r) m arguments⟩
      :: (walkAt (position ++ [0]) r ++ walkAll position 1 arguments)
  | hash s entries => ⟨position, hash s entries⟩ :: walkAll position 0 entries
  | pair s key value =>
    ⟨position, pair s key value⟩ :: (walkAt (position ++ [0]) key ++ walkAt (position ++ [1]) value)
  | array s elements => ⟨position, array s elements⟩ :: walkAll position 0 elements
  | sym s v => [⟨position, sym s v⟩]
  | str s v => [⟨position, str s v⟩]
  | other s tag children => ⟨position, other s tag children⟩ :: walkAll position 0 children

/-- Siblings below a position, numbered from `first`, each with everything below it. -/
def walkAll (position : List Nat) (first : Nat) : List Node → List Located
  | [] => []
  | n :: ns => walkAt (position ++ [first]) n ++ walkAll position (first + 1) ns

end

/-- A node comes first, then each child with everything below it. -/
theorem walkAt_eq (position : List Nat) (n : Node) :
    n.walkAt position = ⟨position, n⟩ :: walkAll position 0 n.children := by
  cases n with
  | send s r m args => cases r <;> simp [walkAt, walkAll, children]
  | pair s k v => simp [walkAt, walkAll, children]
  | _ => simp [walkAt, walkAll, children]

/-- Siblings are walked one after another. -/
theorem walkAll_eq (position : List Nat) (first : Nat) (ns : List Node) :
    walkAll position first ns
      = (Located.siblings position first ns).flatMap fun l => l.node.walkAt l.position := by
  induction ns generalizing first with
  | nil => rfl
  | cons n ns ih => rw [walkAll, ih, Located.siblings, List.flatMap_cons]

/-! ## The two agree -/

theorem size_eq (n : Node) : n.size = sizeAll n.children + 1 := by
  cases n with
  | send s r m args => cases r <;> simp [size, children, sizeAll]
  | _ => simp [size, children, sizeAll]

theorem sizeAll_append (ns ms : List Node) : sizeAll (ns ++ ms) = sizeAll ns + sizeAll ms := by
  induction ns with
  | nil => exact (Nat.zero_add _).symm
  | cons n ns ih =>
    rw [List.cons_append, sizeAll, sizeAll, ih]
    omega

/-- The stack invariant: what is still to come are the nodes on the stack from its top down, each
    with everything below it in pre-order. -/
theorem visit_eq (visits : Nat) (stack : List Located)
    (enough : sizeAll (stack.map Located.node) ≤ visits) :
    visit visits stack = stack.flatMap fun l => l.node.walkAt l.position := by
  induction visits generalizing stack with
  | zero =>
    cases stack with
    | nil => rfl
    | cons l stack =>
      rw [List.map_cons, sizeAll, size_eq] at enough
      omega
  | succ visits ih =>
    cases stack with
    | nil => rfl
    | cons l stack =>
      -- pushed from the last to the first, the children end up on top in their order
      have pushed : l.children.reverse.foldl (fun stack c => c :: stack) stack
          = l.children ++ stack := by simp
      have counted : sizeAll ((l.children ++ stack).map Located.node) + 1
          = l.node.size + sizeAll (stack.map Located.node) := by
        rw [List.map_append, sizeAll_append, Located.children, Located.map_node_siblings, size_eq]
        omega
      rw [List.map_cons, sizeAll] at enough
      rw [visit, pushed, ih _ (by omega), List.flatMap_append, List.flatMap_cons,
        walkAt_eq l.position l.node, walkAll_eq]
      rfl

/-- The walk is the recursive pre-order of the tree. -/
theorem walk_eq (n : Node) : n.walk = n.walkAt [] := by
  rw [walk, visit_eq _ _ (by simp [Located.root, sizeAll])]
  simp [Located.root]

end Node

end NegationLint
