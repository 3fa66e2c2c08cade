/-
  The nesting depth of a raw tree.

  A raw tree is JSON from outside, perhaps far deeper than any tree worth building, so its depth is
  measured first and with a WORK LIST instead of nested calls: pairs of a value still to visit and
  its depth.  A value is visited once, so the number of values in the tree bounds the visits.

  Only objects count, and only those that stand in the `children` array of another: the root has
  depth one, its children two, and so on.  Nothing else about a node matters here, so a malformed
  tree has a depth as well.
-/
import NegationLint.Json.Basic

namespace NegationLint

namespace Json

mutual

/-- The number of values in a value, itself included. -/
def size : Json → Nat
  | .arr items => sizeItems items + 1
  | .obj fields => sizeFields fields + 1
  | _ => 1

/-- The number of values in the items of an array. -/
def sizeItems : List Json → Nat
  | [] => 0
  | v :: vs => size v + sizeItems vs

/-- The number of values in the fields of an object. -/
def sizeFields : List (Text × Json) → Nat
  | [] => 0
  | (_, v) :: fields => size v + sizeFields fields

end

/-- The items of the `children` array of an object; nothing for any other value. -/
def childItems (v : Json) : List Json :=
  match v.get? "children" with
  | some (.arr items) => items
  | _ => []

/-- The raw nodes right below a raw node: the objects among its children. -/
def rawChildren (v : Json) : List Json := v.childItems.filter isObject

/-- The greatest depth in a work list, or `best` if that is greater.  The children of a visited node
    are put in front one by one, so the last of them is visited next. -/
def deepest : Nat → Nat → List (Json × Nat) → Nat
  | 0, best, _ => best
  | _ + 1, best, [] => best
  | visits + 1, best, (v, depth) :: rest =>
    deepest visits (max best depth) (v.rawChildren.foldl (fun work c => (c, depth + 1) :: work) rest)

/-- The depth of a raw tree. -/
def depth (root : Json) : Nat := deepest root.size 0 [(root, 1)]

end Json

end NegationLint
