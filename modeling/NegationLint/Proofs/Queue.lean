/-
  The queue of corrections.

  A correction is compared with the queue entry by entry, and the first entry that is equal or overlaps
  decides.  Nothing depends on which entry that is:

  1. `Settled` — THE INVARIANT: no two entries are equal, and no two overlap;
  2. `judge_eq_known`, `judge_of_not_mem` — ONE STEP: with a settled queue, a correction is known
     exactly if it is queued, and otherwise it clobbers exactly if it overlaps some entry;
  3. `Clash` — two corrections of a list overlap without being equal;
  4. `replaceAll_spec` — ALL STEPS: corrections without a clash are all taken in, each once and in the
     order in which they come first; with a clash one of them is refused.
-/
import Mathlib.Data.List.Induction
import Mathlib.Data.List.Pairwise
import NegationLint.Correction

namespace NegationLint

theorem Correction.overlaps_comm (c d : Correction) : c.overlaps d = d.overlaps c :=
  Span.overlaps_comm c.span d.span

namespace CorrectionQueue

/-! ## Each once -/

section EachOnce

variable {α β : Type} [DecidableEq α] [DecidableEq β]

/-- One more element at the end counts if it is new. -/
theorem eraseDups_concat (xs : List α) (x : α) :
    (xs ++ [x]).eraseDups = if x ∈ xs then xs.eraseDups else xs.eraseDups ++ [x] := by
  rw [List.eraseDups_append]
  by_cases known : x ∈ xs
  · have none : [x].removeAll xs = [] := by simp [List.removeAll, known]
    rw [if_pos known, none, List.eraseDups_nil, List.append_nil]
  · have one : [x].removeAll xs = [x] := by simp [List.removeAll, known]
    rw [if_neg known, one]
    rfl

theorem nodup_eraseDups (xs : List α) : xs.eraseDups.Nodup := by
  induction xs using List.reverseRecOn with
  | nil => exact .nil
  | append_singleton xs x ih =>
    rw [eraseDups_concat]
    by_cases known : x ∈ xs
    · rw [if_pos known]
      exact ih
    · rw [if_neg known]
      refine List.nodup_append.2 ⟨ih, List.pairwise_singleton _ _, ?_⟩
      rintro y hy z hz rfl
      obtain rfl := List.mem_singleton.1 hz
      exact known (List.mem_eraseDups.1 hy)

/-- What tells the elements of a list apart keeps each once. -/
theorem eraseDups_map {f : α → β} {xs : List α}
    (apart : ∀ x ∈ xs, ∀ y ∈ xs, f x = f y → x = y) :
    (xs.map f).eraseDups = xs.eraseDups.map f := by
  induction xs using List.reverseRecOn with
  | nil => rfl
  | append_singleton xs x ih =>
    have before := ih fun y hy z hz =>
      apart y (List.mem_append_left _ hy) z (List.mem_append_left _ hz)
    have known : f x ∈ xs.map f ↔ x ∈ xs := by
      constructor
      · intro h
        obtain ⟨y, hy, same⟩ := List.mem_map.1 h
        have : y = x := apart y (List.mem_append_left _ hy) x (by simp) same
        exact this ▸ hy
      · exact List.mem_map_of_mem
    rw [List.map_append, List.map_singleton, eraseDups_concat, eraseDups_concat, before]
    by_cases hx : x ∈ xs
    · rw [if_pos hx, if_pos (known.2 hx)]
    · rw [if_neg hx, if_neg fun h => hx (known.1 h), List.map_append, List.map_singleton]

end EachOnce

/-! ## One step -/

/-- No two entries are equal, and no two overlap. -/
structure Settled (queue : CorrectionQueue) : Prop where
  nodup : queue.Nodup
  apart : queue.Pairwise fun c d => c.overlaps d = false

theorem settled_nil : Settled [] := ⟨.nil, .nil⟩

/-- Two entries of a settled queue do not overlap, whichever comes first. -/
theorem Settled.overlaps_eq_false {queue : CorrectionQueue} (h : Settled queue) {c d : Correction}
    (hc : c ∈ queue) (hd : d ∈ queue) (ne : c ≠ d) : c.overlaps d = false := by
  have : Std.Symm fun c d : Correction => c.overlaps d = false :=
    ⟨fun c d h => (d.overlaps_comm c).trans h⟩
  exact h.apart.forall hc hd ne

/-- What is queued is known: no entry in front of it can be in its way. -/
theorem judge_eq_known {queue : CorrectionQueue} (h : Settled queue) {c : Correction}
    (hc : c ∈ queue) : judge c queue = .known := by
  induction queue with
  | nil => cases hc
  | cons d queue ih =>
    obtain ⟨nodup, apart⟩ := h
    rw [List.nodup_cons] at nodup
    rw [List.pairwise_cons] at apart
    rw [judge]
    by_cases same : d = c
    · exact if_pos same
    · have behind : c ∈ queue := (List.mem_cons.1 hc).resolve_left fun e => same e.symm
      rw [if_neg same, apart.1 c behind]
      exact ih ⟨nodup.2, apart.2⟩ behind

/-- What is not queued clobbers if it overlaps an entry, and is fresh otherwise. -/
theorem judge_of_not_mem {queue : CorrectionQueue} {c : Correction} (hc : c ∉ queue) :
    judge c queue = if queue.any (·.overlaps c) then .clobbers else .fresh := by
  induction queue with
  | nil => rfl
  | cons d queue ih =>
    rw [List.mem_cons, not_or] at hc
    rw [judge, if_neg fun e => hc.1 e.symm, ih hc.2, List.any_cons]
    cases d.overlaps c <;> rfl

theorem replace_of_mem {queue : CorrectionQueue} (h : Settled queue) {c : Correction}
    (hc : c ∈ queue) : replace queue c = some queue := by
  rw [replace, judge_eq_known h hc]

theorem replace_of_not_mem {queue : CorrectionQueue} {c : Correction} (hc : c ∉ queue) :
    replace queue c = if queue.any (·.overlaps c) then none else some (queue ++ [c]) := by
  rw [replace, judge_of_not_mem hc]
  cases queue.any (·.overlaps c) <;> rfl

/-- A correction that is taken in leaves the queue settled. -/
theorem Settled.concat {queue : CorrectionQueue} (h : Settled queue) {c : Correction}
    (hc : c ∉ queue) (free : queue.any (·.overlaps c) = false) : Settled (queue ++ [c]) := by
  constructor
  · refine List.nodup_append.2 ⟨h.nodup, List.pairwise_singleton _ _, ?_⟩
    rintro d hd e he rfl
    obtain rfl := List.mem_singleton.1 he
    exact hc hd
  · refine List.pairwise_append.2 ⟨h.apart, List.pairwise_singleton _ _, ?_⟩
    intro d hd e he
    obtain rfl := List.mem_singleton.1 he
    rw [List.any_eq_false] at free
    exact Bool.not_eq_true _ ▸ free d hd

/-! ## All steps -/

/-- Two of the corrections overlap without being equal. -/
def Clash (cs : List Correction) : Prop :=
  ∃ c ∈ cs, ∃ d ∈ cs, c ≠ d ∧ c.overlaps d = true

/-- Whether there is a clash depends on which corrections there are, and on nothing else. -/
theorem Clash.mono {cs ds : List Correction} (h : Clash cs) (sub : cs ⊆ ds) : Clash ds := by
  obtain ⟨c, hc, d, hd, ne, clashes⟩ := h
  exact ⟨c, sub hc, d, sub hd, ne, clashes⟩

theorem Settled.not_clash {queue : CorrectionQueue} (h : Settled queue) : ¬ Clash queue := by
  rintro ⟨c, hc, d, hd, ne, clashes⟩
  rw [h.overlaps_eq_false hc hd ne] at clashes
  cases clashes

theorem replaceAll_concat (queue : CorrectionQueue) (cs : List Correction) (c : Correction) :
    replaceAll queue (cs ++ [c]) = (replaceAll queue cs).bind (replace · c) := by
  rw [replaceAll, replaceAll, List.foldlM_append]
  show (cs.foldlM replace queue).bind (fun q => (replace q c).bind some) = _
  simp only [Option.bind_fun_some]

/-- **The run.**  Either there is no clash, and the queue holds each correction once and is settled, or
    there is one, and a correction has been refused.  By induction on the corrections, the last of
    them apart: it is compared with a settled queue. -/
theorem replaceAll_spec (cs : List Correction) :
    (replaceAll [] cs = some cs.eraseDups ∧ Settled cs.eraseDups)
    ∨ (replaceAll [] cs = none ∧ Clash cs) := by
  induction cs using List.reverseRecOn with
  | nil => exact Or.inl ⟨rfl, settled_nil⟩
  | append_singleton cs c ih =>
    rw [replaceAll_concat]
    rcases ih with ⟨taken, settled⟩ | ⟨refused, clash⟩
    · rw [taken, eraseDups_concat, Option.bind_some]
      by_cases known : c ∈ cs
      · have queued : c ∈ cs.eraseDups := List.mem_eraseDups.2 known
        rw [if_pos known, replace_of_mem settled queued]
        exact Or.inl ⟨rfl, settled⟩
      · have new : c ∉ cs.eraseDups := fun h => known (List.mem_eraseDups.1 h)
        rw [if_neg known, replace_of_not_mem new]
        cases free : cs.eraseDups.any (·.overlaps c) with
        | false => exact Or.inl ⟨rfl, settled.concat new free⟩
        | true =>
          obtain ⟨d, hd, clashes⟩ := List.any_eq_true.1 free
          have before : d ∈ cs := List.mem_eraseDups.1 hd
          have ne : d ≠ c := fun e => known (e ▸ before)
          exact Or.inr ⟨rfl, d, List.mem_append_left _ before, c, by simp, ne, clashes⟩
    · rw [refused]
      exact Or.inr ⟨rfl, clash.mono (List.subset_append_left _ _)⟩

/-- One of the corrections is refused exactly if there is a clash among them. -/
theorem replaceAll_eq_none_iff {cs : List Correction} : replaceAll [] cs = none ↔ Clash cs := by
  rcases replaceAll_spec cs with ⟨taken, settled⟩ | ⟨refused, clash⟩
  · rw [taken]
    have quiet : ¬ Clash cs := fun clash =>
      settled.not_clash (clash.mono fun c hc => List.mem_eraseDups.2 hc)
    exact ⟨nofun, fun clash => absurd clash quiet⟩
  · exact ⟨fun _ => clash, fun _ => refused⟩

/-- A queue that is filled holds each correction once, and is settled. -/
theorem replaceAll_eq_some {cs : List Correction} {queue : CorrectionQueue}
    (h : replaceAll [] cs = some queue) : queue = cs.eraseDups ∧ Settled queue := by
  rcases replaceAll_spec cs with ⟨taken, settled⟩ | ⟨refused, -⟩
  · obtain rfl := Option.some.inj (h.symm.trans taken)
    exact ⟨rfl, settled⟩
  · cases h.symm.trans refused

end CorrectionQueue

end NegationLint
