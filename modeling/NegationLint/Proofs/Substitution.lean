/-
  Corrected sources.

  The corrections of a queue are applied from the back of the source to its front, each to the text that
  the ones before it have left, while their offsets go on counting in the source as it was.

  1. `Edit` — what a correction asks for: a text in the place of a piece of the source;
  2. `substituted` — the source with its edits made in ONE pass from the left: untouched pieces of the
     source in turn with the texts of the edits;
  3. `overwritten` — the same for edits that may get in each other's way: each cuts its own length off
     whatever stands behind its beginning, be it source or the text of another edit;
  4. `pairwise_frontToBack` — the order of application, read from the front: by beginnings, and by the
     queue backwards where two edits begin together;
  5. `apply_eq_overwritten` — THE CRUX: in front of the edit applied last the source is as it was, so
     that its offsets are still right, and behind it stands what the other edits make;
  6. `apply_eq_substituted` — in a queue that is `Orderly`, nothing of another edit is ever cut off.
-/
import NegationLint.Proofs.Queue

namespace NegationLint

/-! ## Edits -/

/-- A text in the place of the piece between two offsets. -/
structure Edit where
  begin : Int
  stop : Int
  text : Text
deriving DecidableEq

/-- What a correction asks for. -/
def Correction.edit (c : Correction) : Edit := ⟨c.span.begin, c.span.stop, c.replacement⟩

namespace Edit

/-- The edit stands in a source of so many code points, its two offsets in the right order. -/
structure Inside (size : Nat) (e : Edit) : Prop where
  begin_nonneg : 0 ≤ e.begin
  begin_le_stop : e.begin ≤ e.stop
  stop_le_size : e.stop ≤ size

/-- The two replace overlapping pieces. -/
def Overlap (e f : Edit) : Prop := e.begin < f.stop ∧ f.begin < e.stop

/-- No empty edit comes before one that begins at the same offset and is not empty. -/
def Orderly (es : List Edit) : Prop :=
  es.Pairwise fun e f => ¬ (e.begin = e.stop ∧ f.begin = e.begin ∧ f.begin < f.stop)

instance (es : List Edit) : Decidable (Orderly es) :=
  inferInstanceAs (Decidable (es.Pairwise _))

/-- The edits in a row in which each ends before the next begins. -/
structure Arrangement (es row : List Edit) : Prop where
  perm : row.Perm es
  chain : row.IsChain fun e f => e.stop ≤ f.begin

/-- The edits by their beginnings, those that begin together in the reverse order. -/
structure Stacked (es row : List Edit) : Prop where
  perm : row.Perm es
  order : row.Pairwise fun e f =>
    e.begin < f.begin ∨ (e.begin = f.begin ∧ [f, e].Sublist es)

end Edit

open Edit (Inside Orderly Arrangement Stacked)

theorem Correction.overlaps_iff {c d : Correction} :
    c.overlaps d = true ↔ c.edit.Overlap d.edit := by
  show (decide (c.span.begin < d.span.stop) && decide (d.span.begin < c.span.stop)) = true ↔ _
  rw [Bool.and_eq_true, decide_eq_true_eq, decide_eq_true_eq]
  exact Iff.rfl

/-- The order by beginnings, where of two that begin together the shorter comes in front. -/
def Correction.leftOf (c d : Correction) : Bool :=
  c.span.begin < d.span.begin || (c.span.begin = d.span.begin && c.span.stop ≤ d.span.stop)

theorem Correction.leftOf_iff {c d : Correction} : c.leftOf d = true ↔ c.span.begin < d.span.begin
    ∨ (c.span.begin = d.span.begin ∧ c.span.stop ≤ d.span.stop) := by
  simp [leftOf]

/-- Where the edit to the right does not overlap, it begins at the end or later, unless it is empty
    and begins together with the other. -/
theorem Edit.stop_le_begin {size : Nat} {e f : Edit} (inside : f.Inside size)
    (order : e.begin ≤ f.begin) (apart : ¬ e.Overlap f) :
    e.stop ≤ f.begin ∨ (f.begin = f.stop ∧ e.begin = f.begin ∧ e.begin < e.stop) := by
  have fits := inside.begin_le_stop
  rw [Edit.Overlap, not_and] at apart
  rcases Int.lt_or_le f.begin e.stop with inner | clear
  · have empty : ¬ e.begin < f.stop := fun h => apart h inner
    refine Or.inr ⟨?_, ?_, ?_⟩ <;> omega
  · exact Or.inl clear

/-! ## One pass -/

/-- The source from an offset on, with these edits made from left to right. -/
def substituted (source : Text) (start : Int) : List Edit → Text
  | [] => source.drop start.toNat
  | e :: es => source.slice start e.begin ++ (e.text ++ substituted source e.stop es)

/-- The source from an offset on, where each edit cuts its own length off what stands behind its
    beginning. -/
def overwritten (source : Text) (start : Int) : List Edit → Text
  | [] => source.drop start.toNat
  | e :: es =>
    source.slice start e.begin
      ++ (e.text ++ (overwritten source e.begin es).drop (e.stop - e.begin).toNat)

/-- In front of the first edit the source is as it was. -/
theorem drop_overwritten {source : Text} {es : List Edit} {start next : Int} (h₀ : 0 ≤ start)
    (h₁ : start ≤ next) (free : ∀ e ∈ es, next ≤ e.begin)
    (inside : ∀ e ∈ es, e.Inside source.length) :
    (overwritten source start es).drop (next - start).toNat = overwritten source next es := by
  cases es with
  | nil =>
    rw [overwritten, overwritten, List.drop_drop]
    congr 1
    omega
  | cons e es =>
    have begins := free e List.mem_cons_self
    have ends := (inside e List.mem_cons_self).begin_le_stop
    have bound := (inside e List.mem_cons_self).stop_le_size
    have length : (source.slice start e.begin).length = (e.begin - start).toNat := by
      have := Text.length_slice (t := source) h₀ (show start ≤ e.begin by omega) (by omega)
      omega
    have piece : (source.slice start e.begin).drop (next - start).toNat
        = source.slice next e.begin := by
      rw [Text.slice, Text.slice, List.drop_take, List.drop_drop]
      congr 1
      · omega
      · congr 1
        omega
    rw [overwritten, overwritten, List.drop_append_of_le_length (by omega), piece]

/-- Edits that end before the next one begins are never in each other's way. -/
theorem overwritten_eq_substituted {source : Text} {es : List Edit} {start : Int}
    (inside : ∀ e ∈ es, e.Inside source.length) (apart : es.Pairwise fun e f => e.stop ≤ f.begin) :
    overwritten source start es = substituted source start es := by
  induction es generalizing start with
  | nil => rfl
  | cons e es ih =>
    rw [List.pairwise_cons] at apart
    obtain ⟨begin₀, ordered, -⟩ := inside e List.mem_cons_self
    have others : ∀ f ∈ es, f.Inside source.length := fun f hf => inside f (List.mem_cons_of_mem _ hf)
    rw [overwritten, substituted, drop_overwritten begin₀ ordered apart.1 others,
      ih others apart.2]

namespace CorrectionQueue

/-! ## The order of application -/

theorem perm_insertByBegin (c : Correction) (ds : List Correction) :
    (insertByBegin c ds).Perm (c :: ds) := by
  induction ds with
  | nil => exact List.Perm.refl _
  | cons d ds ih =>
    rw [insertByBegin]
    split
    · exact List.Perm.refl _
    · exact (ih.cons d).trans (List.Perm.swap c d ds)

/-- A correction goes behind those that begin where it begins or later. -/
theorem pairwise_insertByBegin {R : Correction → Correction → Prop} {c : Correction}
    {ds : List Correction} (descends : ∀ d e, R d e → e.span.begin ≤ d.span.begin)
    (behind : ∀ d ∈ ds, c.span.begin ≤ d.span.begin → R d c)
    (before : ∀ d ∈ ds, d.span.begin < c.span.begin → R c d) (sorted : ds.Pairwise R) :
    (insertByBegin c ds).Pairwise R := by
  induction ds with
  | nil => exact List.pairwise_singleton R c
  | cons d ds ih =>
    rw [List.pairwise_cons] at sorted
    rw [insertByBegin]
    split
    · rename_i first
      refine .cons ?_ (.cons sorted.1 sorted.2)
      intro e he
      apply before e he
      rcases List.mem_cons.1 he with rfl | he
      · exact first
      · have := descends d e (sorted.1 e he)
        omega
    · rename_i later
      have rest := ih (fun e he => behind e (List.mem_cons_of_mem d he))
        (fun e he => before e (List.mem_cons_of_mem d he)) sorted.2
      refine .cons ?_ rest
      intro e he
      rcases List.mem_cons.1 ((perm_insertByBegin c ds).subset he) with rfl | he
      · exact behind d List.mem_cons_self (by omega)
      · exact sorted.1 e he

theorem backToFront_concat (queue : CorrectionQueue) (c : Correction) :
    backToFront (queue ++ [c]) = insertByBegin c (backToFront queue) := by
  rw [backToFront, List.foldl_append]
  rfl

theorem perm_backToFront (queue : CorrectionQueue) : (backToFront queue).Perm queue := by
  induction queue using List.reverseRecOn with
  | nil => exact List.Perm.refl _
  | append_singleton queue c ih =>
    rw [backToFront_concat]
    have moved : (c :: queue).Perm (queue ++ [c]) := (List.perm_append_singleton c queue).symm
    exact (perm_insertByBegin c _).trans ((ih.cons c).trans moved)

/-- From the last beginning to the first, equal beginnings in the order of the queue. -/
theorem pairwise_backToFront (queue : CorrectionQueue) :
    (backToFront queue).Pairwise fun c d => d.span.begin < c.span.begin
      ∨ (c.span.begin = d.span.begin ∧ [c, d].Sublist queue) := by
  induction queue using List.reverseRecOn with
  | nil => exact .nil
  | append_singleton queue c ih =>
    rw [backToFront_concat]
    have old (d : Correction) (hd : d ∈ backToFront queue) : [d].Sublist queue :=
      List.singleton_sublist.2 ((perm_backToFront queue).subset hd)
    refine pairwise_insertByBegin ?_ ?_ ?_ (ih.imp ?_)
    · rintro d e (before | ⟨same, -⟩) <;> omega
    · intro d hd order
      rcases Int.lt_or_le c.span.begin d.span.begin with before | same
      · exact Or.inl before
      · exact Or.inr ⟨by omega, (old d hd).append (List.Sublist.refl [c])⟩
    · intro d hd before
      exact Or.inl before
    · intro d e
      exact Or.imp_right (And.imp_right fun h => h.trans (List.sublist_append_left queue [c]))

/-- The order of application from the front: the correction that is applied last comes first. -/
def frontToBack (queue : CorrectionQueue) : List Correction := (backToFront queue).reverse

theorem perm_frontToBack (queue : CorrectionQueue) : (frontToBack queue).Perm queue :=
  (List.reverse_perm _).trans (perm_backToFront queue)

theorem pairwise_frontToBack (queue : CorrectionQueue) :
    (frontToBack queue).Pairwise fun c d => c.span.begin < d.span.begin
      ∨ (c.span.begin = d.span.begin ∧ [d, c].Sublist queue) := by
  rw [frontToBack, List.pairwise_reverse]
  refine (pairwise_backToFront queue).imp ?_
  rintro c d (before | ⟨same, order⟩)
  · exact Or.inl before
  · exact Or.inr ⟨same.symm, order⟩

/-! ## Application -/

/-- The crux: with corrections in ascending order, the front of the source is as it was up to any offset
    before the first of them, and behind it stands what they make.  By induction on the corrections:
    the first of them is applied to what the others have left. -/
theorem take_drop_foldr_splice {source : Text} {cs : List Correction} {start : Int} (h₀ : 0 ≤ start)
    (inside : ∀ c ∈ cs, c.edit.Inside source.length) (free : ∀ c ∈ cs, start ≤ c.span.begin)
    (ascends : cs.Pairwise fun c d => c.span.begin ≤ d.span.begin) :
    (cs.foldr (fun c text => c.splice text) source).take start.toNat = source.take start.toNat
    ∧ (cs.foldr (fun c text => c.splice text) source).drop start.toNat
      = overwritten source start (cs.map Correction.edit) := by
  induction cs generalizing start with
  | nil => exact ⟨rfl, rfl⟩
  | cons c cs ih =>
    rw [List.pairwise_cons] at ascends
    have begin₀ : 0 ≤ c.span.begin := (inside c List.mem_cons_self).begin_nonneg
    have ordered : c.span.begin ≤ c.span.stop := (inside c List.mem_cons_self).begin_le_stop
    have bound : c.span.stop ≤ source.length := (inside c List.mem_cons_self).stop_le_size
    have begins : start ≤ c.span.begin := free c List.mem_cons_self
    obtain ⟨front, back⟩ := ih begin₀ (fun d hd => inside d (List.mem_cons_of_mem _ hd))
      ascends.1 ascends.2
    -- the text that the others have left, cut at the two offsets of the first
    rw [List.foldr_cons]
    generalize cs.foldr (fun c text => c.splice text) source = text at front back
    have behind : text.drop c.span.stop.toNat = (overwritten source c.span.begin
        (cs.map Correction.edit)).drop (c.span.stop - c.span.begin).toNat := by
      rw [← back, List.drop_drop]
      congr 1
      omega
    have length : (source.take c.span.begin.toNat).length = c.span.begin.toNat := by
      rw [List.length_take]
      omega
    rw [Correction.splice, front, behind]
    constructor
    · rw [List.take_append_of_le_length (by omega), List.take_take]
      congr 1
      omega
    · rw [List.drop_append_of_le_length (by omega), List.drop_take]
      rfl

/-- Up to any offset before the first beginning, application leaves the source as it was, and behind it
    stands what the corrections make. -/
theorem take_drop_apply {queue : CorrectionQueue} {source : Text} {start : Int} (h₀ : 0 ≤ start)
    (inside : ∀ c ∈ queue, c.edit.Inside source.length)
    (free : ∀ c ∈ queue, start ≤ c.span.begin) :
    (apply queue source).take start.toNat = source.take start.toNat
    ∧ (apply queue source).drop start.toNat
      = overwritten source start ((frontToBack queue).map Correction.edit) := by
  have applied : apply queue source
      = (frontToBack queue).foldr (fun c text => c.splice text) source := by
    rw [frontToBack, List.foldr_reverse]
    rfl
  have listed {c : Correction} (hc : c ∈ frontToBack queue) : c ∈ queue :=
    (perm_frontToBack queue).subset hc
  have ascends : (frontToBack queue).Pairwise fun c d => c.span.begin ≤ d.span.begin := by
    refine (pairwise_frontToBack queue).imp ?_
    rintro c d (before | ⟨same, -⟩) <;> omega
  rw [applied]
  exact take_drop_foldr_splice h₀ (fun c hc => inside c (listed hc)) (fun c hc => free c (listed hc))
    ascends

/-- **What application makes.**  Corrections that stand in the source are made in one pass from the
    front, each cutting its own length off what stands behind its beginning. -/
theorem apply_eq_overwritten {queue : CorrectionQueue} {source : Text}
    (inside : ∀ c ∈ queue, c.edit.Inside source.length) :
    apply queue source = overwritten source 0 ((frontToBack queue).map Correction.edit) :=
  (take_drop_apply (Int.le_refl 0) inside fun c hc => (inside c hc).begin_nonneg).2

/-! ## Nothing cut off -/

section Settled

variable {queue : CorrectionQueue} {size : Nat}

theorem pairwise_mergeSort_leftOf (queue : CorrectionQueue) :
    (queue.mergeSort Correction.leftOf).Pairwise fun c d => c.leftOf d = true := by
  apply List.pairwise_mergeSort
  · intro c d e
    rw [Correction.leftOf_iff, Correction.leftOf_iff, Correction.leftOf_iff]
    omega
  · intro c d
    rw [Bool.or_eq_true, Correction.leftOf_iff, Correction.leftOf_iff]
    omega

/-- Of two corrections of a settled queue, the one to the left ends before the other begins, unless the
    other is empty and begins where it begins. -/
theorem Settled.stop_le_begin (settled : Settled queue) {c d : Correction} (inside : d.edit.Inside size)
    (hc : c ∈ queue) (hd : d ∈ queue) (ne : c ≠ d) (order : c.span.begin ≤ d.span.begin) :
    c.span.stop ≤ d.span.begin ∨ (d.span.begin = d.span.stop ∧ c.span.begin = d.span.begin
      ∧ c.span.begin < c.span.stop) := by
  have apart : ¬ c.edit.Overlap d.edit := by
    rw [← Correction.overlaps_iff, settled.overlaps_eq_false hc hd ne]
    exact Bool.false_ne_true
  exact Edit.stop_le_begin inside order apart

/-- The corrections of a settled queue can be put in a row, each ending before the next begins. -/
theorem exists_arrangement (settled : Settled queue) (inside : ∀ c ∈ queue, c.edit.Inside size) :
    ∃ row, Arrangement (queue.map Correction.edit) row := by
  have perm := queue.mergeSort_perm Correction.leftOf
  have listed {c : Correction} (hc : c ∈ queue.mergeSort Correction.leftOf) : c ∈ queue := perm.subset hc
  have nodup : (queue.mergeSort Correction.leftOf).Nodup := perm.nodup_iff.2 settled.nodup
  refine ⟨(queue.mergeSort Correction.leftOf).map Correction.edit, perm.map _, List.Pairwise.isChain ?_⟩
  rw [List.pairwise_map]
  refine (List.pairwise_and_iff.2 ⟨pairwise_mergeSort_leftOf queue, nodup⟩).imp_of_mem ?_
  rintro c d hc hd ⟨order, ne⟩
  rw [Correction.leftOf_iff] at order
  rcases settled.stop_le_begin (inside d (listed hd)) (listed hc) (listed hd) ne (by omega) with
    clear | ⟨empty, same, long⟩
  · exact clear
  · -- together with an empty one to its right the first would have to be empty as well
    omega

/-- The order of application stacks the edits of a queue. -/
theorem stacked_frontToBack (queue : CorrectionQueue) :
    Stacked (queue.map Correction.edit) ((frontToBack queue).map Correction.edit) := by
  refine ⟨(perm_frontToBack queue).map _, ?_⟩
  rw [List.pairwise_map]
  refine (pairwise_frontToBack queue).imp ?_
  rintro c d (before | ⟨same, queued⟩)
  · exact Or.inl before
  · exact Or.inr ⟨same, queued.map Correction.edit⟩

/-- In the order of application each correction ends before the next begins, save that empty ones may
    follow where it begins; those are queued before it. -/
theorem pairwise_frontToBack_clear (settled : Settled queue)
    (inside : ∀ c ∈ queue, c.edit.Inside size) :
    ((frontToBack queue).map Correction.edit).Pairwise fun e f => e.stop ≤ f.begin
      ∨ (f.begin = f.stop ∧ e.begin = f.begin ∧ e.begin < e.stop
        ∧ [f, e].Sublist (queue.map Correction.edit)) := by
  have perm := perm_frontToBack queue
  have nodup : (frontToBack queue).Nodup := perm.nodup_iff.2 settled.nodup
  rw [List.pairwise_map]
  refine (List.pairwise_and_iff.2 ⟨pairwise_frontToBack queue, nodup⟩).imp_of_mem ?_
  rintro c d hc hd ⟨order, ne⟩
  have hd := perm.subset hd
  rcases settled.stop_le_begin (inside d hd) (perm.subset hc) hd ne (by omega) with
    clear | ⟨empty, same, long⟩
  · exact Or.inl clear
  · rcases order with less | ⟨-, queued⟩
    · omega
    · exact Or.inr ⟨empty, same, long, queued.map Correction.edit⟩

/-- The order of application is such a row, if the queue is orderly. -/
theorem pairwise_frontToBack_of_orderly (settled : Settled queue)
    (inside : ∀ c ∈ queue, c.edit.Inside size) (orderly : Orderly (queue.map Correction.edit)) :
    ((frontToBack queue).map Correction.edit).Pairwise fun e f => e.stop ≤ f.begin := by
  refine (pairwise_frontToBack_clear settled inside).imp ?_
  rintro e f (clear | ⟨empty, same, long, queued⟩)
  · exact clear
  · -- the only other way is an empty one that is queued before this one
    exact absurd ⟨empty, same, by omega⟩ (List.pairwise_iff_forall_sublist.1 orderly queued)

/-- **Back to front is one pass** for an orderly queue: the texts of the queue in turn with the pieces of
    the source between them. -/
theorem apply_eq_substituted {source : Text} (settled : Settled queue)
    (inside : ∀ c ∈ queue, c.edit.Inside source.length)
    (orderly : Orderly (queue.map Correction.edit)) :
    ∃ row, Arrangement (queue.map Correction.edit) row
      ∧ apply queue source = substituted source 0 row := by
  have apart := pairwise_frontToBack_of_orderly settled inside orderly
  refine ⟨(frontToBack queue).map Correction.edit, ⟨(perm_frontToBack queue).map _, apart.isChain⟩, ?_⟩
  rw [apply_eq_overwritten inside]
  refine overwritten_eq_substituted ?_ apart
  intro e he
  obtain ⟨c, hc, rfl⟩ := List.mem_map.1 he
  exact inside c ((perm_frontToBack queue).subset hc)

end Settled

end CorrectionQueue

end NegationLint
