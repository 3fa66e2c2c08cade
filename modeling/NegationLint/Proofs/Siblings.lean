/-
  Inspections of siblings.

  An inspection may be given any nodes with the same parent, entries or not.  It adds what it finds for each
  of them without ever coming back to an earlier one:

  1. `Ascending` — the findings come in pre-order of their anchors.  It holds of what is found for one
     entry (`ascending_entryFindings`): a value comes before what is inside it, and a list whose own key
     is negated is not reported a second time;
  2. `ascending_flatMap` — siblings in their own order keep it, because the numbers of the siblings are
     where the positions part;
  3. `anchor_mem_of_mem_entryFindings` — what is found for a node of a tree stands in the tree;
  4. `inspect_of_siblings` — so an inspection of siblings is one entry after another, and the walk comes to
     its anchors in the order of the findings.
-/
import NegationLint.Proofs.Inspection

namespace NegationLint

namespace EnumRule

/-! ## In pre-order -/

/-- The findings come in pre-order of their anchors. -/
def Ascending (found : List Finding) : Prop :=
  found.Pairwise fun f g => f.anchor.position < g.anchor.position

section Ascending

variable {severity : Text}

/-- Along siblings in their order, what is found below each of them in pre-order is so as a whole. -/
theorem ascending_flatMap {adds : Located → List Finding}
    (below : ∀ l, ∀ f ∈ adds l, l.position <+: f.anchor.position) (each : ∀ l, Ascending (adds l))
    {p : List Nat} {ls : List Located} (order : ls.Pairwise fun a b =>
      ∃ i j, i < j ∧ a.position = p ++ [i] ∧ b.position = p ++ [j]) : Ascending (ls.flatMap adds) := by
  refine List.pairwise_flatMap.2 ⟨fun l _ => each l, order.imp ?_⟩
  rintro a b ⟨i, j, hij, ha, hb⟩ f hf g hg
  exact lt_of_below_of_below hij (ha ▸ below a f hf) (hb ▸ below b g hg)

theorem ascending_keyFindings (l : Located) : Ascending (keyFindings severity l) := by
  cases he : entry? l with
  | none =>
    rw [keyFindings_of_none he]
    exact .nil
  | some entry =>
    rw [keyFindings_of_entry he]
    split
    · exact List.pairwise_singleton _ _
    · exact .nil

theorem ascending_valueFindings (reported : Bool) (value : Located) :
    Ascending (valueFindings severity reported value) := by
  rw [valueFindings]
  split
  · exact ascending_flatMap (fun l f hf => below_of_mem_keyFindings hf) ascending_keyFindings
      (Located.pairwise_siblings _ 0 _)
  · rename_i elements _
    split
    · exact .nil
    · cases elements.find? (isNegated ·.literalName) with
      | none => exact .nil
      | some e => exact List.pairwise_singleton _ _
  · exact .nil

/-- In a value that is reported itself, what else is found comes behind it. -/
theorem lt_of_mem_valueFindings {value : Located} {f : Finding}
    (hf : f ∈ valueFindings severity true value) : value.position < f.anchor.position := by
  rw [valueFindings] at hf
  split at hf
  · obtain ⟨inner, hl, hf⟩ := List.mem_flatMap.1 hf
    obtain ⟨i, n, -, rfl⟩ := Located.mem_siblings.1 hl
    exact lt_of_below (below_of_mem_keyFindings hf)
  · cases hf
  · cases hf

theorem ascending_entryFindings (l : Located) : Ascending (entryFindings severity l) := by
  cases he : entry? l with
  | none =>
    rw [entryFindings_of_none he]
    exact .nil
  | some entry =>
    obtain ⟨key, value⟩ := entry
    rw [entryFindings_of_entry he]
    refine List.pairwise_append.2 ⟨ascending_keyFindings l, ascending_valueFindings _ value, ?_⟩
    intro f hf g hg
    rw [(mem_keyFindings hf).2, ← position_of_entry he]
    cases negated : isNegated key.literalName with
    | true =>
      rw [negated] at hg
      exact lt_of_mem_valueFindings hg
    | false =>
      -- nothing is found for a key that is not negated
      rw [keyFindings_of_entry he, negated] at hf
      cases hf

end Ascending

/-- Whatever is found for an entry of a tree stands in the tree. -/
theorem anchor_mem_of_mem_entryFindings {severity : Text} {root : Node} {l : Located}
    (hl : l ∈ root.walk) {f : Finding} (hf : f ∈ entryFindings severity l) : f.anchor ∈ root.walk := by
  have entry {l value : Located} {key : Node} (hl : l ∈ root.walk) (he : entry? l = some (key, value)) :
      value ∈ root.walk := by
    obtain ⟨site, n, hn, rfl⟩ := entry?_eq_some_iff.1 he
    refine Node.mem_walk_of_mem_children hl (Located.mem_siblings.2 ⟨1, n, ?_, rfl⟩)
    rw [hn]
    rfl
  have keyed {l : Located} (hl : l ∈ root.walk) {f : Finding} (hf : f ∈ keyFindings severity l) :
      f.anchor ∈ root.walk := by
    rw [keyFindings] at hf
    split at hf
    · rename_i he
      split at hf
      · obtain rfl := List.mem_singleton.1 hf
        exact entry hl he
      · cases hf
    · cases hf
  cases he : entry? l with
  | none =>
    rw [entryFindings_of_none he] at hf
    cases hf
  | some pair =>
    obtain ⟨key, value⟩ := pair
    rw [entryFindings_of_entry he] at hf
    rcases List.mem_append.1 hf with hf | hf
    · exact keyed hl hf
    · rw [valueFindings] at hf
      split at hf
      · rename_i site entries hn
        obtain ⟨inner, hi, hf⟩ := List.mem_flatMap.1 hf
        have child : inner ∈ value.children := by
          rw [Located.children, hn]
          exact hi
        exact keyed (Node.mem_walk_of_mem_children (entry hl he) child) hf
      · split at hf
        · cases hf
        · obtain ⟨e, -, rfl⟩ := List.mem_map.1 hf
          exact entry hl he
      · cases hf

/-! ## Siblings -/

/-- **An inspection of siblings.**  Take children of a node of a document, in any order and none of them
    twice.  An inspection finds what is found for each of them alone, one after another, so that two lists
    are inspected together as they are one by one.  If the children keep their own order, then the
    positions of the anchors ascend, and the walk comes to the anchors in the order of the findings. -/
theorem inspect_of_siblings {d : Document} {parent : Located} (hp : parent ∈ d.walk)
    {ls : List Located} (siblings : ls ⊆ parent.children) (distinct : ls.Nodup) (severity : Text) :
    inspect severity ls = ls.flatMap (entryFindings severity)
    ∧ (∀ xs ys, ls = xs ++ ys → inspect severity ls = inspect severity xs ++ inspect severity ys)
    ∧ (ls.Sublist parent.children →
      ((inspect severity ls).map (·.anchor.position)).Pairwise (· < ·)
      ∧ ((inspect severity ls).map (·.anchor)).Sublist d.walk) := by
  have apart : ls.Pairwise fun a b => Apart a.position b.position :=
    distinct.imp_of_mem fun ha hb ne => Located.apart_of_mem_children (siblings ha) (siblings hb) ne
  have one := inspect_of_apart severity apart
  refine ⟨one, ?_, ?_⟩
  · rintro xs ys rfl
    rw [List.pairwise_append] at apart
    rw [one, List.flatMap_append, inspect_of_apart severity apart.1,
      inspect_of_apart severity apart.2.1]
  · intro order
    cases hr : d.root with
    | none =>
      rw [Document.walk_of_root_eq_none hr] at hp
      cases hp
    | some root =>
      have walk := Document.walk_of_root_eq_some hr
      rw [walk] at hp ⊢
      have ascends : Ascending (ls.flatMap (entryFindings severity)) :=
        ascending_flatMap (fun l f hf => (mem_entryFindings hf).2) ascending_entryFindings
          ((Located.pairwise_siblings parent.position 0 parent.node.children).sublist order)
      rw [one]
      refine ⟨List.pairwise_map.2 ascends, Node.sublist_walk (List.pairwise_map.2 ascends) ?_⟩
      intro anchor ha
      obtain ⟨f, hf, rfl⟩ := List.mem_map.1 ha
      obtain ⟨l, hl, hf⟩ := List.mem_flatMap.1 hf
      exact anchor_mem_of_mem_entryFindings (Node.mem_walk_of_mem_children hp (siblings hl)) hf

/-- A declaration with a list behind a negated key, something that is no entry, a hash with a negated entry,
    and a list with a negated element. -/
def mixedEntries : Json := .obj [
  ("source", .str "enum not_a: [:not_b], **c, d: \x7bnot_e: 1\x7d, f: [:g, :not_h]"),
  ("ast", Example.node "send" 0 57 [.null, .str "enum", Example.node "hash" 5 57 [
    Example.node "pair" 5 20 [Example.symbol 5 10 "not_a",
      Example.node "array" 12 20 [Example.symbol 13 19 "not_b"]],
    Example.node "kwsplat" 22 25 [Example.node "lvar" 24 25 [.str "c"]],
    Example.node "pair" 27 40 [Example.symbol 27 28 "d", Example.node "hash" 30 40 [
      Example.node "pair" 31 39 [Example.symbol 31 36 "not_e", Example.node "int" 38 39 [.int 1]]]],
    Example.node "pair" 42 57 [Example.symbol 42 43 "f",
      Example.node "array" 45 57 [Example.symbol 46 48 "g", Example.symbol 50 56 "not_h"]]]])]

/-- Each of its lists is reported once, the first one under its key and not under its element. -/
theorem inspect_of_siblings_mixedEntries : ∃ d parent, Document.load .standard mixedEntries = .ok d
    ∧ parent ∈ d.walk ∧ parent.children.length = 4
    ∧ (inspect "warning" parent.children).map (·.anchor.position) = [[0, 0, 1], [0, 2, 1, 0, 1], [0, 3, 1]]
    ∧ inspect "warning" parent.children = parent.children.flatMap (entryFindings "warning")
    ∧ ((inspect "warning" parent.children).map (·.anchor)).Sublist d.walk := by
  have loads : ∃ d root entries, Document.load .standard mixedEntries = .ok d ∧ d.root = some root
      ∧ root.at? [0] = some entries ∧ (Located.mk [0] entries).children.length = 4
      ∧ (inspect "warning" (Located.mk [0] entries).children).map (·.anchor.position)
        = [[0, 0, 1], [0, 2, 1, 0, 1], [0, 3, 1]] := ⟨_, _, _, rfl, rfl, rfl, rfl, by decide⟩
  obtain ⟨d, root, entries, hd, hr, ha, four, found⟩ := loads
  have walked : (⟨[0], entries⟩ : Located) ∈ d.walk := by
    rw [Document.walk_of_root_eq_some hr]
    exact Node.mem_walk.2 ha
  obtain ⟨one, -, order⟩ := inspect_of_siblings walked (List.Subset.refl _)
    (Located.nodup_children ⟨[0], entries⟩) "warning"
  exact ⟨d, ⟨[0], entries⟩, hd, walked, four, found, one, (order (List.Sublist.refl _)).2⟩

end EnumRule

end NegationLint
