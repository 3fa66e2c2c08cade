/-
  Offers to a queue.

  A queue lives through any number of offers: some corrections are taken in, some are there already, and some
  are refused and change nothing.  There is no way for it to stop being settled:

  1. `offer_eq_or` — ONE OFFER leaves the queue as it is or puts the correction at its end, so that a
     queue only grows (`prefix_offerAll`);
  2. `settled_offerAll` — ALL OFFERS to an empty queue leave a settled one.  In a settled queue the
     search for the first entry that decides comes to the same end as a look at all of them
     (`replace_eq_none_iff` and its two neighbours);
  3. `offer_outcomes` — what becomes of an offer, and that the same offer ends the same way ever after.
     THE CRUX for a refused one: it cannot have been taken in since, because the entry that was in its
     way is still there, and a settled queue does not hold both;
  4. `eq_of_begin_eq` — corrections that are not empty begin at different offsets, if they are in one
     settled queue.  So there is one order for them, and `apply_offerAll` is the one pass in this order.
-/
import NegationLint.Proofs.Substitution

namespace NegationLint

namespace CorrectionQueue

/-! ## One offer -/

section Offer

variable {queue : CorrectionQueue} {c : Correction}

/-- A refusal comes before anything is put in. -/
theorem offer_of_refused (h : replace queue c = none) : offer queue c = queue := by
  rw [replace] at h
  rw [offer]
  cases verdict : judge c queue with
  | fresh =>
    rw [verdict] at h
    cases h
  | _ => rfl

/-- What is taken in is what the queue holds afterwards. -/
theorem offer_of_replace {after : CorrectionQueue} (h : replace queue c = some after) :
    offer queue c = after := by
  rw [replace] at h
  rw [offer]
  cases verdict : judge c queue with
  | clobbers =>
    rw [verdict] at h
    cases h
  | _ =>
    rw [verdict] at h
    exact Option.some.inj h

/-- What has become of an offer, and the queue afterwards, are one thing. -/
theorem replace_eq_some_iff {after : CorrectionQueue} :
    replace queue c = some after ↔ replace queue c ≠ none ∧ offer queue c = after := by
  constructor
  · intro h
    exact ⟨h ▸ Option.some_ne_none after, offer_of_replace h⟩
  · rintro ⟨taken, same⟩
    obtain ⟨q, hq⟩ := Option.ne_none_iff_exists'.1 taken
    rw [hq, ← same, offer_of_replace hq]

/-- What an offer can do at all. -/
theorem offer_eq_or (queue : CorrectionQueue) (c : Correction) :
    offer queue c = queue ∨ offer queue c = queue ++ [c] := by
  rw [offer]
  cases judge c queue with
  | known => exact Or.inl rfl
  | clobbers => exact Or.inl rfl
  | fresh => exact Or.inr rfl

theorem prefix_offer (queue : CorrectionQueue) (c : Correction) : queue <+: offer queue c := by
  rcases offer_eq_or queue c with same | longer
  · exact ⟨[], (List.append_nil queue).trans same.symm⟩
  · exact ⟨[c], longer.symm⟩

/-- What is not refused is queued afterwards. -/
theorem mem_offer (taken : replace queue c ≠ none) : c ∈ offer queue c := by
  by_cases queued : c ∈ queue
  · exact (prefix_offer queue c).subset queued
  · rw [replace_of_not_mem queued] at taken
    have free : queue.any (·.overlaps c) = false := by
      by_contra crowded
      rw [Bool.not_eq_false] at crowded
      exact taken (by rw [if_pos crowded])
    have fresh : replace queue c = some (queue ++ [c]) := by
      rw [replace_of_not_mem queued, free]
      rfl
    rw [offer_of_replace fresh]
    exact List.mem_append_right _ List.mem_cons_self

variable (settled : Settled queue)

include settled

/-- What is queued is left alone. -/
theorem replace_eq_self_iff : replace queue c = some queue ↔ c ∈ queue := by
  constructor
  · intro h
    by_contra new
    rw [replace_of_not_mem new] at h
    split at h
    · cases h
    · cases List.append_right_eq_self.1 (Option.some.inj h)
  · exact replace_of_mem settled

/-- In a queue that is not settled, what is queued can be refused. -/
example : replace [⟨⟨0, 2, 1, 0⟩, "x"⟩, ⟨⟨1, 3, 1, 1⟩, "y"⟩] ⟨⟨1, 3, 1, 1⟩, "y"⟩ = none := by decide

/-- What is not queued and overlaps an entry is refused, and nothing else is. -/
theorem replace_eq_none_iff :
    replace queue c = none ↔ c ∉ queue ∧ ∃ d ∈ queue, d.overlaps c = true := by
  by_cases queued : c ∈ queue
  · rw [replace_of_mem settled queued]
    exact ⟨fun h => absurd h (Option.some_ne_none queue), fun h => absurd queued h.1⟩
  · rw [replace_of_not_mem queued, ← List.any_eq_true]
    cases queue.any (·.overlaps c) with
    | true => exact ⟨fun _ => ⟨queued, rfl⟩, fun _ => rfl⟩
    | false => exact ⟨fun h => absurd h (Option.some_ne_none _), fun h => absurd h.2 Bool.false_ne_true⟩

/-- What is not queued and overlaps no entry is put at the end. -/
theorem replace_eq_concat_iff :
    replace queue c = some (queue ++ [c]) ↔ c ∉ queue ∧ ∀ d ∈ queue, d.overlaps c = false := by
  by_cases queued : c ∈ queue
  · rw [replace_of_mem settled queued]
    refine ⟨fun h => ?_, fun h => absurd queued h.1⟩
    cases List.self_eq_append_right.1 (Option.some.inj h)
  · rw [replace_of_not_mem queued]
    have none : queue.any (·.overlaps c) = false ↔ ∀ d ∈ queue, d.overlaps c = false := by
      rw [List.any_eq_false]
      exact forall₂_congr fun d _ => Bool.not_eq_true _ ▸ Iff.rfl
    rw [← none]
    cases queue.any (·.overlaps c) with
    | true => exact ⟨fun h => absurd h.symm (Option.some_ne_none _), fun h => absurd h.2.symm Bool.false_ne_true⟩
    | false => exact ⟨fun _ => ⟨queued, rfl⟩, fun _ => rfl⟩

/-- **One offer** leaves a settled queue settled. -/
theorem Settled.offer (c : Correction) : Settled (offer queue c) := by
  cases h : replace queue c with
  | none =>
    rw [offer_of_refused h]
    exact settled
  | some after =>
    rw [offer_of_replace h]
    by_cases queued : c ∈ queue
    · rw [replace_of_mem settled queued] at h
      exact Option.some.inj h ▸ settled
    · rw [replace_of_not_mem queued] at h
      split at h
      · cases h
      · rename_i free
        exact Option.some.inj h ▸ settled.concat queued (Bool.not_eq_true _ ▸ free)

end Offer

/-! ## All offers -/

theorem prefix_offerAll (queue : CorrectionQueue) (cs : List Correction) :
    queue <+: offerAll queue cs := by
  induction cs generalizing queue with
  | nil => exact List.prefix_rfl
  | cons c cs ih => exact (prefix_offer queue c).trans (ih (offer queue c))

/-- All entries have been there before or have been offered. -/
theorem mem_of_mem_offerAll {queue : CorrectionQueue} {cs : List Correction} {d : Correction}
    (hd : d ∈ offerAll queue cs) : d ∈ queue ∨ d ∈ cs := by
  induction cs generalizing queue with
  | nil => exact Or.inl hd
  | cons c cs ih =>
    rcases ih hd with before | later
    · rcases offer_eq_or queue c with same | longer
      · exact Or.inl (same ▸ before)
      · rw [longer, List.mem_append, List.mem_singleton] at before
        rcases before with before | rfl
        · exact Or.inl before
        · exact Or.inr List.mem_cons_self
    · exact Or.inr (List.mem_cons_of_mem c later)

theorem Settled.offerAll {queue : CorrectionQueue} (settled : Settled queue) (cs : List Correction) :
    Settled (offerAll queue cs) := by
  induction cs generalizing queue with
  | nil => exact settled
  | cons c cs ih => exact ih (settled.offer c)

/-- **All offers**: whatever is offered to an empty queue, it is settled afterwards. -/
theorem settled_offerAll (cs : List Correction) : Settled (offerAll [] cs) := settled_nil.offerAll cs

/-- A refusal is final: the entry that was in the way is still there. -/
theorem replace_eq_none_of_prefix {queue after : CorrectionQueue} (settled : Settled queue)
    (settled' : Settled after) (grown : queue <+: after) {c : Correction}
    (refused : replace queue c = none) : replace after c = none := by
  obtain ⟨new, d, hd, clashes⟩ := (replace_eq_none_iff settled).1 refused
  have ne : d ≠ c := fun same => new (same ▸ hd)
  refine (replace_eq_none_iff settled').2 ⟨?_, d, grown.subset hd, clashes⟩
  intro queued
  rw [settled'.overlaps_eq_false (grown.subset hd) queued ne] at clashes
  cases clashes

/-- **What becomes of an offer.**  Take a queue that started empty and has been offered any corrections.  It
    is settled.  The next offer is accepted without a change exactly if the correction is queued; it is
    refused without a change exactly if the correction is not queued and overlaps an entry; and otherwise
    it is accepted and the correction put at the end.  After any more offers the same one, made again, is
    accepted without a change if it was accepted, and refused if it was refused. -/
theorem offer_outcomes (cs : List Correction) (c : Correction) (more : List Correction) :
    let queue := offerAll [] cs
    let after := offerAll (offer queue c) more
    Settled queue
    ∧ (replace queue c ≠ none ∧ offer queue c = queue ↔ c ∈ queue)
    ∧ (replace queue c = none ∧ offer queue c = queue
      ↔ c ∉ queue ∧ ∃ d ∈ queue, d.overlaps c = true)
    ∧ (replace queue c ≠ none ∧ offer queue c = queue ++ [c]
      ↔ c ∉ queue ∧ ∀ d ∈ queue, d.overlaps c = false)
    ∧ (replace queue c ≠ none ↔ replace after c = some after)
    ∧ (replace queue c = none ↔ replace after c = none) := by
  intro queue after
  have settled : Settled queue := settled_offerAll cs
  have settled' : Settled after := (settled.offer c).offerAll more
  have grown : queue <+: after := (prefix_offer queue c).trans (prefix_offerAll _ more)
  have again (h : replace queue c ≠ none) : replace after c = some after :=
    replace_of_mem settled' ((prefix_offerAll _ more).subset (mem_offer h))
  have still (h : replace queue c = none) : replace after c = none :=
    replace_eq_none_of_prefix settled settled' grown h
  refine ⟨settled, ?_, ?_, ?_, ?_, ?_⟩
  · rw [← replace_eq_some_iff, replace_eq_self_iff settled]
  · rw [← replace_eq_none_iff settled]
    exact ⟨And.left, fun h => ⟨h, offer_of_refused h⟩⟩
  · rw [← replace_eq_some_iff, replace_eq_concat_iff settled]
  · refine ⟨again, fun h refused => ?_⟩
    rw [still refused] at h
    cases h
  · refine ⟨still, fun h => ?_⟩
    by_contra taken
    rw [again taken] at h
    cases h

/-! ## The text that is made -/

/-- The edits of a queue by their beginnings. -/
def byBegin (queue : CorrectionQueue) : List Edit :=
  (queue.map Correction.edit).mergeSort fun e f => e.begin ≤ f.begin

theorem perm_byBegin (queue : CorrectionQueue) : (byBegin queue).Perm (queue.map Correction.edit) :=
  List.mergeSort_perm _ _

theorem pairwise_byBegin (queue : CorrectionQueue) :
    (byBegin queue).Pairwise fun e f => e.begin ≤ f.begin := by
  have sorted : (byBegin queue).Pairwise fun e f => decide (e.begin ≤ f.begin) = true := by
    apply List.pairwise_mergeSort
    · intro e f g h h'
      rw [decide_eq_true_eq] at h h' ⊢
      omega
    · intro e f
      rw [Bool.or_eq_true, decide_eq_true_eq, decide_eq_true_eq]
      omega
  exact sorted.imp of_decide_eq_true

/-- A queue stays settled in any other order. -/
theorem Settled.perm {queue queue' : CorrectionQueue} (settled : Settled queue)
    (same : queue'.Perm queue) : Settled queue' where
  nodup := same.nodup_iff.2 settled.nodup
  apart := (same.pairwise_iff fun {c d} h => (d.overlaps_comm c).trans h).2 settled.apart

section Filled

variable {queue : CorrectionQueue} {source : Text}
  (settled : Settled queue) (filled : ∀ c ∈ queue, c.span.begin < c.span.stop)

include settled filled

/-- Two corrections of a settled queue that begin together are the same: they would overlap. -/
theorem eq_of_begin_eq {c d : Correction} (hc : c ∈ queue) (hd : d ∈ queue)
    (same : c.span.begin = d.span.begin) : c = d := by
  by_contra ne
  have apart : ¬ c.edit.Overlap d.edit := by
    rw [← Correction.overlaps_iff, settled.overlaps_eq_false hc hd ne]
    exact Bool.false_ne_true
  have first := filled c hc
  have second := filled d hd
  refine apart ⟨?_, ?_⟩
  · show c.span.begin < d.span.stop
    omega
  · show d.span.begin < c.span.stop
    omega

/-- So there is only one way to put them in the order of their beginnings. -/
theorem eq_map_frontToBack {row : List Edit} (perm : row.Perm (queue.map Correction.edit))
    (sorted : row.Pairwise fun e f => e.begin ≤ f.begin) :
    row = (frontToBack queue).map Correction.edit := by
  have perm' := (perm_frontToBack queue).map Correction.edit
  have sorted' : ((frontToBack queue).map Correction.edit).Pairwise fun e f => e.begin ≤ f.begin := by
    rw [List.pairwise_map]
    refine (pairwise_frontToBack queue).imp ?_
    rintro c d (before | ⟨same, -⟩)
    · exact Int.le_of_lt before
    · exact Int.le_of_eq same
  refine List.Perm.eq_of_pairwise ?_ sorted sorted' (perm.trans perm'.symm)
  intro e f he hf less less'
  obtain ⟨c, hc, rfl⟩ := List.mem_map.1 (perm.subset he)
  obtain ⟨d, hd, rfl⟩ := List.mem_map.1 (perm'.subset hf)
  rw [eq_of_begin_eq settled filled hc hd (Int.le_antisymm less less')]

/-- **Back to front is one pass** in the order of the beginnings, in which each edit ends before the next
    begins. -/
theorem apply_eq_substituted_byBegin (inside : ∀ c ∈ queue, c.edit.Inside source.length) :
    (byBegin queue).Pairwise (fun e f => e.stop ≤ f.begin)
    ∧ apply queue source = substituted source 0 (byBegin queue) := by
  have orderly : Edit.Orderly (queue.map Correction.edit) := by
    refine List.pairwise_map.2 (settled.nodup.imp_of_mem fun {c d} hc _ _ => ?_)
    rintro ⟨empty, -, -⟩
    exact Int.ne_of_lt (filled c hc) empty
  have clear := pairwise_frontToBack_of_orderly settled inside orderly
  rw [eq_map_frontToBack settled filled (perm_byBegin queue) (pairwise_byBegin queue)]
  refine ⟨clear, ?_⟩
  rw [apply_eq_overwritten inside]
  refine overwritten_eq_substituted ?_ clear
  intro e he
  obtain ⟨c, hc, rfl⟩ := List.mem_map.1 he
  exact inside c ((perm_frontToBack queue).subset hc)

end Filled

/-- **The text that a queue makes.**  Take a queue that started empty and has been offered any corrections of
    pieces of the source that are not empty.  Its edits, by their beginnings, each end before the next
    begins, and the source with all of them applied is made in one pass over them: the untouched pieces
    of the source in turn with the replacements.  A queue with the same corrections in another order makes
    the same text. -/
theorem apply_offerAll {source : Text} {cs : List Correction} (placed : ∀ c ∈ cs,
      0 ≤ c.span.begin ∧ c.span.begin < c.span.stop ∧ c.span.stop ≤ source.length) :
    (byBegin (offerAll [] cs)).Pairwise (fun e f => e.stop ≤ f.begin)
    ∧ apply (offerAll [] cs) source = substituted source 0 (byBegin (offerAll [] cs))
    ∧ ∀ queue : CorrectionQueue, queue.Perm (offerAll [] cs) →
      apply queue source = apply (offerAll [] cs) source := by
  have offered {c : Correction} (hc : c ∈ offerAll [] cs) : c ∈ cs :=
    (mem_of_mem_offerAll hc).resolve_left List.not_mem_nil
  have made {queue : CorrectionQueue} (same : queue.Perm (offerAll [] cs)) :
      (byBegin queue).Pairwise (fun e f => e.stop ≤ f.begin)
      ∧ apply queue source = substituted source 0 (byBegin queue) :=
    apply_eq_substituted_byBegin ((settled_offerAll cs).perm same)
      (fun c hc => (placed c (offered (same.subset hc))).2.1)
      (fun c hc => by
        obtain ⟨begin₀, filled, bound⟩ := placed c (offered (same.subset hc))
        exact ⟨begin₀, Int.le_of_lt filled, bound⟩)
  obtain ⟨clear, text⟩ := made (.refl _)
  refine ⟨clear, text, fun queue same => ?_⟩
  obtain ⟨-, text'⟩ := made same
  have filled : ∀ c ∈ offerAll [] cs, c.span.begin < c.span.stop :=
    fun c hc => (placed c (offered hc)).2.1
  have rows : byBegin queue = byBegin (offerAll [] cs) := by
    have perm := (perm_byBegin queue).trans (same.map Correction.edit)
    rw [eq_map_frontToBack (settled_offerAll cs) filled perm (pairwise_byBegin queue),
      eq_map_frontToBack (settled_offerAll cs) filled (perm_byBegin _) (pairwise_byBegin _)]
  rw [text', text, rows]

/-- Offers out of order: two of adjacent pieces, one made again, one that overlaps both, and one that only
    deletes. -/
def mixedOffers : List Correction := [⟨⟨3, 6, 1, 3⟩, "x"⟩, ⟨⟨0, 3, 1, 0⟩, "longer"⟩,
  ⟨⟨3, 6, 1, 3⟩, "x"⟩, ⟨⟨2, 4, 1, 2⟩, "y"⟩, ⟨⟨7, 9, 1, 7⟩, ""⟩]

/-- Three of them are queued, and all three are made. -/
theorem apply_offerAll_mixedOffers :
    (∀ c ∈ mixedOffers, 0 ≤ c.span.begin ∧ c.span.begin < c.span.stop
      ∧ c.span.stop ≤ ("abcdefghij" : Text).length)
    ∧ (offerAll [] mixedOffers).length = 3
    ∧ substituted "abcdefghij" 0 (byBegin (offerAll [] mixedOffers)) = "longerxgj"
    ∧ ∀ queue : CorrectionQueue, queue.Perm (offerAll [] mixedOffers) →
      apply queue "abcdefghij" = apply (offerAll [] mixedOffers) "abcdefghij" := by
  have placed : ∀ c ∈ mixedOffers, 0 ≤ c.span.begin ∧ c.span.begin < c.span.stop
      ∧ c.span.stop ≤ ("abcdefghij" : Text).length := by decide
  have text : apply (offerAll [] mixedOffers) "abcdefghij" = ("longerxgj" : Text) := by decide
  obtain ⟨-, made, same⟩ := apply_offerAll placed
  exact ⟨placed, by decide, made.symm.trans text, same⟩

end CorrectionQueue

end NegationLint
