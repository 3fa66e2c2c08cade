/-
  A text around a source: corrections.

  Whether two corrections overlap, and which of them begins first, are questions of their offsets among
  themselves, so it does not matter when all offsets grow by the same number.

  1. `replaceAll_moved` — moved corrections are queued and refused as before;
  2. `frontToBack_moved` — and they are applied in the same order;
  3. `le_length_overwritten` — THE CRUX: an edit never cuts off more than stands behind its beginning, so
     that what follows the source is never touched;
  4. `apply_embedded` — a queue that is applied to a source makes the same of it inside a longer text.
-/
import NegationLint.Proofs.Embedding.Moved
import NegationLint.Proofs.Substitution

namespace NegationLint

open Edit (Inside)

namespace Correction

theorem moved_inj {p : Text} {c d : Correction} : c.moved p = d.moved p ↔ c = d := by
  constructor
  · intro h
    obtain ⟨s, t⟩ := c
    obtain ⟨s', t'⟩ := d
    rw [moved, moved, Correction.mk.injEq] at h
    obtain ⟨spans, texts⟩ := h
    rw [Correction.mk.injEq]
    exact ⟨Span.moved_inj.1 spans, texts⟩
  · rintro rfl
    rfl

theorem overlaps_moved (p : Text) (c d : Correction) :
    (c.moved p).overlaps (d.moved p) = c.overlaps d := Span.overlaps_moved p c.span d.span

end Correction

namespace CorrectionQueue

/-! ## The queue -/

section Queue

variable (p : Text)

theorem judge_moved (c : Correction) (queue : CorrectionQueue) :
    judge (c.moved p) (queue.map (Correction.moved p)) = judge c queue := by
  induction queue with
  | nil => rfl
  | cons d queue ih =>
    rw [List.map_cons, judge, judge, ih, Correction.overlaps_moved]
    simp only [Correction.moved_inj]

theorem replace_moved (queue : CorrectionQueue) (c : Correction) :
    replace (queue.map (Correction.moved p)) (c.moved p)
      = (replace queue c).map (List.map (Correction.moved p)) := by
  rw [replace, replace, judge_moved]
  cases judge c queue with
  | known => rfl
  | clobbers => rfl
  | fresh =>
    show some (_ ++ [c.moved p]) = some ((queue ++ [c]).map _)
    rw [List.map_append]
    rfl

/-- Moved corrections are queued and refused as before. -/
theorem replaceAll_moved (queue : CorrectionQueue) (cs : List Correction) :
    replaceAll (queue.map (Correction.moved p)) (cs.map (Correction.moved p))
      = (replaceAll queue cs).map (List.map (Correction.moved p)) := by
  induction cs using List.reverseRecOn with
  | nil => rfl
  | append_singleton cs c ih =>
    rw [List.map_append, List.map_singleton, replaceAll_concat, replaceAll_concat, ih]
    cases replaceAll queue cs with
    | none => rfl
    | some filled => exact replace_moved p filled c

theorem insertByBegin_moved (c : Correction) (ds : List Correction) :
    insertByBegin (c.moved p) (ds.map (Correction.moved p))
      = (insertByBegin c ds).map (Correction.moved p) := by
  induction ds with
  | nil => rfl
  | cons d ds ih =>
    have order : d.span.begin + (p.length : Int) < c.span.begin + p.length
        ↔ d.span.begin < c.span.begin := by omega
    rw [List.map_cons, insertByBegin, insertByBegin, ih]
    show (if d.span.begin + (p.length : Int) < c.span.begin + p.length then _ else _) = _
    simp only [order]
    split <;> rfl

theorem backToFront_moved (queue : CorrectionQueue) :
    backToFront (queue.map (Correction.moved p)) = (backToFront queue).map (Correction.moved p) := by
  induction queue using List.reverseRecOn with
  | nil => rfl
  | append_singleton queue c ih =>
    rw [List.map_append, List.map_singleton, backToFront_concat, backToFront_concat, ih,
      insertByBegin_moved]

theorem frontToBack_moved (queue : CorrectionQueue) :
    frontToBack (queue.map (Correction.moved p)) = (frontToBack queue).map (Correction.moved p) := by
  rw [frontToBack, backToFront_moved, frontToBack, List.map_reverse]

end Queue

end CorrectionQueue

/-! ## Edits -/

/-- An edit of the source as an edit of a text with `n` code points in front of the source. -/
def Edit.shifted (n : Int) (e : Edit) : Edit := { e with begin := e.begin + n, stop := e.stop + n }

theorem Edit.Inside.shifted {p s : Text} (q : Text) {e : Edit} (h : e.Inside s.length) :
    (e.shifted p.length).Inside (p ++ (s ++ q)).length := by
  obtain ⟨begin₀, ordered, bound⟩ := h
  refine ⟨?_, ?_, ?_⟩
  · show 0 ≤ e.begin + (p.length : Int)
    omega
  · show e.begin + (p.length : Int) ≤ e.stop + p.length
    omega
  · show e.stop + (p.length : Int) ≤ (p ++ (s ++ q)).length
    rw [List.length_append, List.length_append]
    omega

/-- The crux: up to an offset that no edit begins before, there is something of the source or of an edit
    to cut off, wherever empty edits may stand at the start.  By induction on the edits. -/
theorem le_length_overwritten {source : Text} {es : List Edit} {start stop : Int} (h₀ : 0 ≤ start)
    (h₁ : start ≤ stop) (h₂ : stop ≤ source.length) (inside : ∀ e ∈ es, e.Inside source.length)
    (clear : ∀ e ∈ es, stop ≤ e.begin ∨ (e.begin = e.stop ∧ start = e.begin)) :
    stop - start ≤ (overwritten source start es).length := by
  induction es with
  | nil =>
    rw [overwritten, List.length_drop]
    omega
  | cons e es ih =>
    rcases clear e List.mem_cons_self with behind | ⟨empty, rfl⟩
    · -- the source itself reaches as far
      have bound : e.begin ≤ source.length := by
        have := (inside e List.mem_cons_self).begin_le_stop
        have := (inside e List.mem_cons_self).stop_le_size
        omega
      have piece := Text.length_slice h₀ (Int.le_trans h₁ behind) bound
      rw [overwritten, List.length_append]
      omega
    · have rest := ih (fun f hf => inside f (List.mem_cons_of_mem _ hf))
        (fun f hf => clear f (List.mem_cons_of_mem _ hf))
      have nothing : (e.stop - e.begin).toNat = 0 := by omega
      rw [overwritten, nothing, List.drop_zero, List.length_append, List.length_append]
      omega

/-- What edits make of a source they make of it in a longer text, behind what stands in front of it. -/
theorem overwritten_embedded (p q : Text) {s : Text} {es : List Edit} {start : Int} (h₀ : 0 ≤ start)
    (h₁ : start ≤ s.length) (inside : ∀ e ∈ es, e.Inside s.length) (free : ∀ e ∈ es, start ≤ e.begin)
    (clear : es.Pairwise fun e f => e.stop ≤ f.begin ∨ (f.begin = f.stop ∧ e.begin = f.begin)) :
    overwritten (p ++ (s ++ q)) (start + p.length) (es.map (Edit.shifted p.length))
      = overwritten s start es ++ q := by
  induction es generalizing start with
  | nil =>
    have offset : (start + (p.length : Int)).toNat = p.length + start.toNat := by omega
    rw [List.map_nil, overwritten, overwritten, offset, List.drop_length_add_append,
      List.drop_append_of_le_length (by omega)]
  | cons e es ih =>
    rw [List.pairwise_cons] at clear
    obtain ⟨begin₀, ordered, bound⟩ := inside e List.mem_cons_self
    have begins : start ≤ e.begin := free e List.mem_cons_self
    have others : ∀ f ∈ es, f.Inside s.length := fun f hf => inside f (List.mem_cons_of_mem _ hf)
    have ascends : ∀ f ∈ es, e.begin ≤ f.begin := by
      intro f hf
      rcases clear.1 f hf with behind | ⟨-, same⟩ <;> omega
    have rest := ih begin₀ (by omega) others ascends clear.2
    have piece := Buffer.slice_embedded p q h₀ begins (show e.begin ≤ s.length by omega)
    have width : e.stop + (p.length : Int) - (e.begin + p.length) = e.stop - e.begin := by omega
    have room : (e.stop - e.begin).toNat ≤ (overwritten s e.begin es).length := by
      have := le_length_overwritten begin₀ ordered bound others clear.1
      omega
    rw [List.map_cons, overwritten, overwritten]
    show (p ++ (s ++ q)).slice (start + p.length) (e.begin + p.length)
      ++ (e.text ++ (overwritten (p ++ (s ++ q)) (e.begin + p.length) _).drop
        (e.stop + (p.length : Int) - (e.begin + p.length)).toNat) = _
    rw [piece, rest, width, List.drop_append_of_le_length room, List.append_assoc, List.append_assoc]

/-! ## Application -/

namespace CorrectionQueue

/-- **Application.**  A settled queue whose corrections stand in the source makes the same of the source
    inside a longer text, and leaves what stands around it alone. -/
theorem apply_embedded (p q : Text) {queue : CorrectionQueue} {s : Text} (settled : Settled queue)
    (inside : ∀ c ∈ queue, c.edit.Inside s.length) :
    apply (queue.map (Correction.moved p)) (p ++ (s ++ q)) = p ++ (apply queue s ++ q) := by
  have moved : ∀ c ∈ queue.map (Correction.moved p), c.edit.Inside (p ++ (s ++ q)).length := by
    intro c hc
    obtain ⟨d, hd, rfl⟩ := List.mem_map.1 hc
    exact (inside d hd).shifted q
  have behind : ∀ c ∈ queue.map (Correction.moved p), (p.length : Int) ≤ c.span.begin := by
    intro c hc
    obtain ⟨d, hd, rfl⟩ := List.mem_map.1 hc
    have begin₀ : 0 ≤ d.span.begin := (inside d hd).begin_nonneg
    show (p.length : Int) ≤ d.span.begin + p.length
    omega
  -- the longer text is cut where the source begins: in front of it nothing happens
  obtain ⟨front, back⟩ := take_drop_apply (Int.natCast_nonneg p.length) moved behind
  have listed : ∀ e ∈ (frontToBack queue).map Correction.edit, e.Inside s.length := by
    intro e he
    obtain ⟨c, hc, rfl⟩ := List.mem_map.1 he
    exact inside c ((perm_frontToBack queue).subset hc)
  have clear : ((frontToBack queue).map Correction.edit).Pairwise fun e f =>
      e.stop ≤ f.begin ∨ (f.begin = f.stop ∧ e.begin = f.begin) := by
    refine (pairwise_frontToBack_clear settled inside).imp ?_
    rintro e f (clear | ⟨empty, same, -, -⟩)
    · exact Or.inl clear
    · exact Or.inr ⟨empty, same⟩
  have made := overwritten_embedded p q (Int.le_refl 0) (Int.natCast_nonneg s.length) listed
    (fun e he => (listed e he).begin_nonneg) clear
  rw [Int.zero_add] at made
  have edits : (frontToBack (queue.map (Correction.moved p))).map Correction.edit
      = ((frontToBack queue).map Correction.edit).map (Edit.shifted p.length) := by
    rw [frontToBack_moved, List.map_map, List.map_map]
    rfl
  rw [edits, made, ← apply_eq_overwritten inside, Int.toNat_natCast] at back
  rw [Int.toNat_natCast, List.take_left] at front
  calc apply (queue.map (Correction.moved p)) (p ++ (s ++ q))
      = (apply (queue.map (Correction.moved p)) (p ++ (s ++ q))).take p.length
        ++ (apply (queue.map (Correction.moved p)) (p ++ (s ++ q))).drop p.length :=
        (List.take_append_drop ..).symm
    _ = p ++ (apply queue s ++ q) := by rw [front, back]

end CorrectionQueue

end NegationLint
