/-
  Raw trees: recursion on them, and their height.

  A raw tree is any JSON value, followed downwards through the `children` arrays of its objects and
  nowhere else.  What stands in such an array is smaller than the value it stands in, so a property
  that passes from the children of a value to the value holds of every raw tree (`childInduction`).

  `height` is the depth of nesting said by recursion, on any value, well formed or not.  `depth` is
  what the program computes, with a work list.  The crux is `deepest_le_iff`: what a work list comes
  to is at most `n` exactly when this is so of `best` and of the height of each value on the list,
  counted from its own depth.  Said with a bound, the order of the list does not matter, and
  `depth_eq_height` follows.
-/
import NegationLint.Tree.Depth

namespace NegationLint

namespace Json

/-! ## Downwards through the children -/

theorem sizeOf_lt_of_lookup {key : Text} {v : Json} {fields : List (Text × Json)}
    (h : lookup key fields = some v) : sizeOf v < sizeOf fields := by
  induction fields with
  | nil => cases h
  | cons f fields ih =>
    obtain ⟨k, w⟩ := f
    rw [lookup] at h
    split at h
    · obtain rfl := Option.some.inj h
      simp only [List.cons.sizeOf_spec, Prod.mk.sizeOf_spec]
      omega
    · have := ih h
      simp only [List.cons.sizeOf_spec]
      omega

/-- The children of a value are those that its `children` field lists. -/
theorem childItems_eq_of_lookup {fields : List (Text × Json)} {items : List Json}
    (h : lookup "children" fields = some (.arr items)) : (Json.obj fields).childItems = items := by
  simp only [childItems, get?, h]

/-- A value with children is an object whose `children` field lists them. -/
theorem exists_lookup_of_mem_childItems {v c : Json} (h : c ∈ v.childItems) :
    ∃ fields, v = .obj fields ∧ lookup "children" fields = some (.arr v.childItems) := by
  cases v with
  | obj fields =>
    refine ⟨fields, rfl, ?_⟩
    simp only [childItems, get?] at h ⊢
    split at h
    · assumption
    · cases h
  | _ => cases h

theorem sizeOf_lt_of_mem_childItems {v c : Json} (h : c ∈ v.childItems) : sizeOf c < sizeOf v := by
  obtain ⟨fields, hv, hl⟩ := exists_lookup_of_mem_childItems h
  have listed := sizeOf_lt_of_lookup hl
  have item := List.sizeOf_lt_of_mem h
  rw [hv] at item listed ⊢
  simp only [Json.arr.sizeOf_spec, Json.obj.sizeOf_spec] at listed ⊢
  omega

theorem mem_childItems_of_mem_rawChildren {v c : Json} (h : c ∈ v.rawChildren) : c ∈ v.childItems :=
  (List.mem_filter.1 h).1

/-- **Induction on raw trees**: what passes from the children of a value to the value holds of all. -/
theorem childInduction {motive : Json → Prop}
    (step : ∀ v, (∀ c ∈ v.childItems, motive c) → motive v) (v : Json) : motive v :=
  step v fun c _h => childInduction step c
termination_by sizeOf v
decreasing_by exact sizeOf_lt_of_mem_childItems _h

/-! ## The height -/

/-- The height of a raw tree: one more than the greatest height among the raw nodes right below. -/
def height (v : Json) : Nat := (v.rawChildren.attach.map fun c => height c.1).foldr max 0 + 1
termination_by sizeOf v
decreasing_by exact sizeOf_lt_of_mem_childItems (mem_childItems_of_mem_rawChildren c.2)

theorem height_eq (v : Json) : v.height = (v.rawChildren.map height).foldr max 0 + 1 := by
  rw [height, List.attach_map_val]

theorem foldr_max_le_iff {xs : List Nat} {n : Nat} : xs.foldr max 0 ≤ n ↔ ∀ x ∈ xs, x ≤ n := by
  induction xs with
  | nil => simp
  | cons x xs ih => rw [List.foldr_cons, Nat.max_le, ih, List.forall_mem_cons]

theorem height_pos (v : Json) : 0 < v.height := by
  rw [height_eq]
  exact Nat.succ_pos _

theorem height_le_succ_iff {v : Json} {n : Nat} :
    v.height ≤ n + 1 ↔ ∀ c ∈ v.rawChildren, c.height ≤ n := by
  rw [height_eq, Nat.succ_le_succ_iff, foldr_max_le_iff, List.forall_mem_map]

/-- Every raw node right below is less high. -/
theorem height_lt_of_mem_rawChildren {v c : Json} (h : c ∈ v.rawChildren) : c.height < v.height := by
  have pos := v.height_pos
  have bound : v.height ≤ (v.height - 1) + 1 := by omega
  have := height_le_succ_iff.1 bound c h
  omega

/-- Below a value at some depth nothing is deeper than `n` exactly if the value is not and nothing is
    below its children, which are one deeper. -/
theorem add_height_le_iff {v : Json} {depth n : Nat} :
    depth + v.height ≤ n + 1
      ↔ depth ≤ n ∧ ∀ c ∈ v.rawChildren, depth + 1 + c.height ≤ n + 1 := by
  have pos := v.height_pos
  constructor
  · intro h
    refine ⟨by omega, ?_⟩
    intro c hc
    have := height_lt_of_mem_rawChildren hc
    omega
  · rintro ⟨hd, below⟩
    have : v.height ≤ n - depth + 1 := by
      refine height_le_succ_iff.2 ?_
      intro c hc
      have := below c hc
      omega
    omega

/-! ## The work list measures the height -/

theorem size_pos (v : Json) : 0 < v.size := by
  cases v <;> simp [size]

theorem size_le_of_lookup {key : Text} {v : Json} {fields : List (Text × Json)}
    (h : lookup key fields = some v) : v.size ≤ sizeFields fields := by
  induction fields with
  | nil => cases h
  | cons f fields ih =>
    obtain ⟨k, w⟩ := f
    rw [lookup] at h
    rw [sizeFields]
    split at h
    · obtain rfl := Option.some.inj h
      omega
    · have := ih h
      omega

theorem sizeItems_append (xs ys : List Json) :
    sizeItems (xs ++ ys) = sizeItems xs + sizeItems ys := by
  induction xs with
  | nil => exact (Nat.zero_add _).symm
  | cons v xs ih =>
    rw [List.cons_append, sizeItems, sizeItems, ih]
    omega

theorem sizeItems_reverse (xs : List Json) : sizeItems xs.reverse = sizeItems xs := by
  induction xs with
  | nil => rfl
  | cons v xs ih =>
    rw [List.reverse_cons, sizeItems_append, ih, sizeItems, sizeItems, sizeItems]
    omega

theorem sizeItems_filter_le (p : Json → Bool) (items : List Json) :
    sizeItems (items.filter p) ≤ sizeItems items := by
  induction items with
  | nil => exact Nat.le_refl 0
  | cons v items ih =>
    rw [List.filter_cons, sizeItems]
    split
    · rw [sizeItems]
      omega
    · omega

/-- All that stands below a raw node is counted in its size, apart from the node itself. -/
theorem sizeItems_rawChildren_lt (v : Json) : sizeItems v.rawChildren < v.size := by
  cases hc : v.childItems with
  | nil =>
    rw [rawChildren, hc]
    exact v.size_pos
  | cons c items =>
    obtain ⟨fields, rfl, hl⟩ := exists_lookup_of_mem_childItems (v := v) (c := c) (by simp [hc])
    have listed := size_le_of_lookup hl
    have below := sizeItems_filter_le isObject (obj fields).childItems
    rw [rawChildren, size]
    rw [size] at listed
    omega

/-- **The work list invariant.**  With enough visits left, the result is at most `n` exactly when
    `best` is, and so is the depth of the lowest node below each value on the list. -/
theorem deepest_le_iff (visits : Nat) (best : Nat) (work : List (Json × Nat)) (n : Nat)
    (enough : sizeItems (work.map Prod.fst) ≤ visits) :
    deepest visits best work ≤ n ↔ best ≤ n ∧ ∀ p ∈ work, p.2 + p.1.height ≤ n + 1 := by
  induction visits generalizing best work with
  | zero =>
    cases work with
    | nil => simp [deepest]
    | cons p work =>
      have := p.1.size_pos
      rw [List.map_cons, sizeItems] at enough
      omega
  | succ visits ih =>
    cases work with
    | nil => simp [deepest]
    | cons p work =>
      obtain ⟨v, depth⟩ := p
      have pushed : v.rawChildren.foldl (fun work c => (c, depth + 1) :: work) work
          = (v.rawChildren.map (·, depth + 1)).reverse ++ work := by simp
      have below := v.sizeItems_rawChildren_lt
      have counted : sizeItems (((v.rawChildren.map (·, depth + 1)).reverse ++ work).map Prod.fst)
          = sizeItems v.rawChildren + sizeItems (work.map Prod.fst) := by
        rw [List.map_append, sizeItems_append, List.map_reverse, sizeItems_reverse, List.map_map]
        show sizeItems (v.rawChildren.map id) + _ = _
        rw [List.map_id]
      have room : v.size + sizeItems (work.map Prod.fst) ≤ visits + 1 := by
        rw [List.map_cons, sizeItems] at enough
        exact enough
      rw [deepest, pushed, ih, List.forall_mem_cons, add_height_le_iff, Nat.max_le]
      · simp only [List.mem_append, List.mem_reverse, List.mem_map, or_imp, forall_and,
          forall_exists_index, and_imp, forall_apply_eq_imp_iff₂, and_assoc]
      · omega

/-- The measured depth of a raw tree is its height. -/
theorem depth_eq_height (root : Json) : root.depth = root.height := by
  have bound (n : Nat) : root.depth ≤ n ↔ root.height ≤ n := by
    rw [depth, deepest_le_iff _ _ _ _ (by simp [sizeItems])]
    simp only [List.forall_mem_singleton]
    omega
  exact Nat.le_antisymm ((bound _).2 (Nat.le_refl _)) ((bound _).1 (Nat.le_refl _))

end Json

end NegationLint
