/-
  What a run corrects.

  A run that is asked for a correction turns each array that it reports into a hash.  Three things are
  said of such a run, by the edits alone that its findings ask for:

  1. `Finding.edit?`, `edits` — what a finding asks for, and what a run is asked for, each edit once;
  2. `conflict_iff_edits_differ` — it ends in a conflict exactly if two findings ask for different edits
     of overlapping pieces; it reports how many edits there are otherwise;
  3. `correctedSource_of_report` — the corrected source is made in one pass from the left.  THE
     EXCEPTION is an empty array that is found before another one which begins at the same offset:
     the edit of the second cuts its length off the text of the first (`garbled_misplacedLists`).
-/
import Mathlib.Data.Finset.Card
import Mathlib.Data.Finset.Dedup
import Mathlib.Data.List.Permutation
import NegationLint.Proofs.Conclusions
import NegationLint.Proofs.Placement
import NegationLint.Proofs.Substitution

namespace NegationLint

open CorrectionQueue (Clash nodup_eraseDups eraseDups_map)
open Edit (Inside Orderly Arrangement Stacked)

/-! ## Edits of findings -/

/-- What a finding asks for: an array is replaced by the hash from its elements to their indices. -/
def Finding.edit? (f : Finding) : Option Edit :=
  match f.anchor.node with
  | .array site elements => some ⟨site.span.begin, site.span.stop, EnumRule.indexedHash elements⟩
  | _ => none

/-- The edits that findings ask for, each once, in the order in which they are first asked for. -/
def edits (found : List Finding) : List Edit := (found.filterMap Finding.edit?).eraseDups

theorem length_edits (found : List Finding) :
    (edits found).length = (found.filterMap Finding.edit?).toFinset.card := by
  have members : (edits found).toFinset = (found.filterMap Finding.edit?).toFinset := by
    ext e
    rw [List.mem_toFinset, List.mem_toFinset, edits, List.mem_eraseDups]
  have each : (edits found).Nodup := nodup_eraseDups _
  rw [← members, List.toFinset_card_of_nodup each]

theorem isSome_autocorrect_iff {f : Finding} :
    (EnumRule.autocorrect f).isSome = true ↔ f.anchor.node.kind = .array := by
  unfold EnumRule.autocorrect
  cases f.anchor.node <;> simp [Node.kind]

theorem map_edit_autocorrect (f : Finding) :
    (EnumRule.autocorrect f).map Correction.edit = f.edit? := by
  unfold EnumRule.autocorrect Finding.edit?
  cases f.anchor.node <;> rfl

theorem edit?_eq_some_iff {f : Finding} {e : Edit} :
    f.edit? = some e ↔ ∃ c, EnumRule.autocorrect f = some c ∧ c.edit = e := by
  rw [← map_edit_autocorrect, Option.map_eq_some_iff]

theorem span_of_autocorrect {f : Finding} {c : Correction} (h : EnumRule.autocorrect f = some c) :
    c.span = f.span := by
  unfold EnumRule.autocorrect at h
  split at h
  · rename_i site elements hn
    obtain rfl := Option.some.inj h
    show site.span = f.anchor.node.span
    rw [hn]
    rfl
  · cases h

namespace Lint

/-! ## The corrections of a run -/

section Run

variable {settings : Settings} {request : Json} {d : Document}

theorem wantsCorrection_iff : wantsCorrection settings request = true
    ↔ settings.autocorrect = true ∧ request.get? "autocorrect" = some (.bool true) := by
  rw [wantsCorrection, Bool.and_eq_true]
  refine and_congr_right fun _ => ?_
  split
  · rename_i b hb
    rw [hb]
    simp
  · rename_i other
    constructor
    · intro h
      cases h
    · intro h
      exact absurd h (other true)

theorem mem_corrections_iff (wanted : wantsCorrection settings request = true) {found : List Finding}
    {c : Correction} :
    c ∈ corrections settings request found ↔ ∃ f ∈ found, EnumRule.autocorrect f = some c := by
  rw [corrections, List.mem_filterMap, wanted]
  exact Iff.rfl

variable (wanted : wantsCorrection settings request = true)
  (loaded : Document.load settings request = .ok d)

include wanted in
theorem filterMap_edit? (found : List Finding) : found.filterMap Finding.edit?
    = (corrections settings request found).map Correction.edit := by
  rw [corrections, wanted, List.map_filterMap]
  refine List.filterMap_congr fun f _ => ?_
  exact (map_edit_autocorrect f).symm

include wanted loaded

/-- A correction stands in the source, at a place that follows from its two offsets. -/
theorem placed_correction {c : Correction}
    (hc : c ∈ corrections settings request (findings settings d)) :
    c.edit.Inside d.source.length ∧ c.span = d.buffer.span c.span.begin c.span.stop := by
  obtain ⟨f, hf, correct⟩ := (mem_corrections_iff wanted).1 hc
  have placed := placed_of_mem_findings loaded hf
  have span : c.span = f.anchor.node.span := span_of_autocorrect correct
  have size : d.buffer.size = d.source.length := d.buffer.size_eq
  refine ⟨⟨?_, ?_, ?_⟩, ?_⟩
  · show 0 ≤ c.span.begin
    rw [span]
    exact placed.begin_nonneg
  · show c.span.begin ≤ c.span.stop
    rw [span]
    exact placed.begin_le_stop
  · show c.span.stop ≤ d.source.length
    rw [span, ← size]
    exact placed.stop_le_size
  · rw [span]
    exact placed.span_eq

/-- Two corrections that ask for the same edit are the same. -/
theorem eq_of_edit_eq {c c' : Correction}
    (hc : c ∈ corrections settings request (findings settings d))
    (hc' : c' ∈ corrections settings request (findings settings d)) (same : c.edit = c'.edit) :
    c = c' := by
  have place := (placed_correction wanted loaded hc).2
  have place' := (placed_correction wanted loaded hc').2
  obtain ⟨begins, ends, texts⟩ := Edit.mk.injEq .. ▸ same
  have spans : c.span = c'.span := by rw [place, place', begins, ends]
  cases c
  cases c'
  cases spans
  cases texts
  rfl

/-- The queue of a run holds the corrections behind its edits. -/
theorem map_edit_eraseDups :
    (corrections settings request (findings settings d)).eraseDups.map Correction.edit
      = edits (findings settings d) := by
  have apart : ∀ c ∈ corrections settings request (findings settings d),
      ∀ c' ∈ corrections settings request (findings settings d), c.edit = c'.edit → c = c' :=
    fun _ hc _ hc' => eq_of_edit_eq wanted loaded hc hc'
  rw [edits, filterMap_edit? wanted, eraseDups_map apart]

/-- Two corrections of a run clash exactly if two findings ask for different edits of overlapping
    pieces. -/
theorem clash_iff : Clash (corrections settings request (findings settings d))
    ↔ ∃ f ∈ findings settings d, ∃ g ∈ findings settings d, ∃ e e', f.edit? = some e
      ∧ g.edit? = some e' ∧ f.span.overlaps g.span = true ∧ e ≠ e' := by
  constructor
  · rintro ⟨c, hc, c', hc', ne, clashes⟩
    obtain ⟨f, hf, correct⟩ := (mem_corrections_iff wanted).1 hc
    obtain ⟨g, hg, correct'⟩ := (mem_corrections_iff wanted).1 hc'
    refine ⟨f, hf, g, hg, c.edit, c'.edit, edit?_eq_some_iff.2 ⟨c, correct, rfl⟩,
      edit?_eq_some_iff.2 ⟨c', correct', rfl⟩, ?_, ?_⟩
    · rw [← span_of_autocorrect correct, ← span_of_autocorrect correct']
      exact clashes
    · intro same
      exact ne (eq_of_edit_eq wanted loaded hc hc' same)
  · rintro ⟨f, hf, g, hg, e, e', he, he', clashes, ne⟩
    obtain ⟨c, correct, rfl⟩ := edit?_eq_some_iff.1 he
    obtain ⟨c', correct', rfl⟩ := edit?_eq_some_iff.1 he'
    refine ⟨c, (mem_corrections_iff wanted).2 ⟨f, hf, correct⟩, c',
      (mem_corrections_iff wanted).2 ⟨g, hg, correct'⟩, ?_, ?_⟩
    · rintro rfl
      exact ne rfl
    · show c.span.overlaps c'.span = true
      rw [span_of_autocorrect correct, span_of_autocorrect correct']
      exact clashes

/-- All corrections of a run stand in the source. -/
theorem inside_eraseDups :
    ∀ c ∈ (corrections settings request (findings settings d)).eraseDups,
      c.edit.Inside d.source.length :=
  fun _ hc => (placed_correction wanted loaded (List.mem_eraseDups.1 hc)).1

end Run

end Lint

/-! ## Conflicts -/

/-- A request to correct one declaration.  Each of its lists stands between two offsets and holds one
    symbol of this name. -/
def listsRequest (source : Text) (lists : List (Int × Int × Text)) : Json :=
  .obj [("source", .str source), ("ast", Example.node "send" 0 source.length [.null, .str "enum",
    Example.node "hash" 0 source.length (lists.map fun (begin, stop, name) =>
      Example.node "pair" begin stop [Example.symbol begin begin "key",
        Example.node "array" begin stop [Example.symbol begin stop name]])]),
    ("autocorrect", .bool true)]

section Run

variable {κ : Type} [DecidableEq κ] {settings : Settings} {sinks : List (Sink κ)} {request : Json}

/-- **Conflicts are real, and only real ones are reported.**  A run that is asked for a correction, and
    may make one, ends in a conflict exactly if two of its findings ask for different edits of
    overlapping pieces, in whatever order the findings come.  If it reports instead, then it reports
    its findings, those at arrays as correctable and no others, and the number of different edits. -/
theorem conflict_iff_edits_differ {d : Document}
    (accepted : Contract.lintRequest.accepts request = true)
    (loaded : Document.load settings request = .ok d)
    (asked : request.get? "autocorrect" = some (.bool true)) (allowed : settings.autocorrect = true) :
    ((lint settings sinks request).outcome = .rejected .correctionConflict
      ↔ ∃ f ∈ Lint.findings settings d, ∃ g ∈ Lint.findings settings d, ∃ e e', f.edit? = some e
        ∧ g.edit? = some e' ∧ f.span.overlaps g.span = true ∧ e ≠ e')
    ∧ (∀ found : List Finding, found.Perm (Lint.findings settings d) →
      (Lint.conclude settings request d found = .rejected .correctionConflict
        ↔ (lint settings sinks request).outcome = .rejected .correctionConflict))
    ∧ ∀ r, (lint settings sinks request).outcome = .report r →
      r.findings.map (·.finding) = Lint.findings settings d
      ∧ (∀ f ∈ r.findings, f.correctable = true ↔ f.finding.anchor.node.kind = .array)
      ∧ ∃ c, r.corrected = some c
        ∧ c.count = ((Lint.findings settings d).filterMap Finding.edit?).toFinset.card := by
  have wanted : Lint.wantsCorrection settings request = true :=
    Lint.wantsCorrection_iff.2 ⟨allowed, asked⟩
  rw [outcome_of_load accepted loaded]
  refine ⟨?_, ?_, ?_⟩
  · rw [Lint.conclude_eq_conflict_iff, Lint.clash_iff wanted loaded]
  · intro found perm
    have same (c : Correction) : c ∈ Lint.corrections settings request found
        ↔ c ∈ Lint.corrections settings request (Lint.findings settings d) :=
      (perm.filterMap _).mem_iff
    rw [Lint.conclude_eq_conflict_iff, Lint.conclude_eq_conflict_iff]
    constructor
    · intro clash
      exact clash.mono fun c => (same c).1
    · intro clash
      exact clash.mono fun c => (same c).2
  · intro r h
    obtain ⟨rfl, -⟩ := Lint.eq_reportOf_of_conclude _ _ _ _ h
    refine ⟨Lint.map_finding_reportOf .., ?_, ?_⟩
    · intro f hf
      obtain ⟨g, -, rfl⟩ := List.mem_map.1 hf
      show (Lint.correctionOf (Lint.wantsCorrection settings request) g).isSome = true ↔ _
      rw [wanted]
      exact isSome_autocorrect_iff
    · refine ⟨_, if_pos wanted, ?_⟩
      have counted := congrArg List.length (Lint.map_edit_eraseDups wanted loaded)
      rw [List.length_map, length_edits] at counted
      exact counted

/-- Two lists that overlap, the second inside the first. -/
theorem conflict_iff_edits_differ_nestedLists : ∃ d,
    Document.load .standard (listsRequest "enum a: [:not_a]" [(8, 16, "not_a"), (9, 15, "not_b")])
      = .ok d
    ∧ ∃ f ∈ Lint.findings .standard d, ∃ g ∈ Lint.findings .standard d, ∃ e e', f.edit? = some e
      ∧ g.edit? = some e' ∧ f.span.overlaps g.span = true ∧ e ≠ e' := by
  have loads : ∃ d, Document.load .standard
      (listsRequest "enum a: [:not_a]" [(8, 16, "not_a"), (9, 15, "not_b")]) = .ok d := ⟨_, rfl⟩
  obtain ⟨d, hd⟩ := loads
  have conflict : (lint .standard ([] : List (Sink Unit)) (listsRequest "enum a: [:not_a]"
      [(8, 16, "not_a"), (9, 15, "not_b")])).outcome = .rejected .correctionConflict := by rfl
  exact ⟨d, hd, (conflict_iff_edits_differ (by decide) hd rfl rfl).1.1 conflict⟩

/-! ## The corrected source -/

/-- **What the corrected source is.**  The edits that the findings of a report ask for can be put in a
    row in which each ends before the next begins.  The corrected source is made in one pass over them
    from the left, those that begin together in the reverse order of the findings, where each edit cuts
    its own length off what stands behind its beginning.  If the findings come in an orderly way, then
    this is the source with the edits of such a row substituted: every text is there as a whole, and so
    is all of the source between them. -/
theorem correctedSource_of_report {r : Report} {c : CorrectedSource}
    (h : (lint settings sinks request).outcome = .report r) (hc : r.corrected = some c) :
    ∃ source es, request.get? "source" = some (.str source)
      ∧ es = edits (r.findings.map (·.finding))
      ∧ (∃ row, Arrangement es row)
      ∧ (∃ row, Stacked es row ∧ c.text = overwritten source 0 row)
      ∧ (Orderly es → ∃ row, Arrangement es row ∧ c.text = substituted source 0 row) := by
  obtain ⟨d, loaded, concluded⟩ := exists_load_of_report h
  obtain ⟨rfl, settled⟩ := Lint.eq_reportOf_of_conclude _ _ _ _ concluded
  -- only a run that is asked for it has a corrected source
  have wanted : Lint.wantsCorrection settings request = true := by
    by_contra unwanted
    have none : (if Lint.wantsCorrection settings request = true then _ else none) = some c := hc
    rw [if_neg unwanted] at none
    cases none
  have made : (if Lint.wantsCorrection settings request = true then _ else none) = some c := hc
  rw [if_pos wanted] at made
  obtain rfl := Option.some.inj made
  obtain ⟨source, root, env, hb, -⟩ := Document.load_eq_ok loaded
  have text : d.source = source := Document.source_of_buffer_eq hb
  have inside := Lint.inside_eraseDups wanted loaded
  have queued := Lint.map_edit_eraseDups wanted loaded
  refine ⟨source, _, env.source_eq, rfl, ?_, ?_, ?_⟩ <;> rw [Lint.map_finding_reportOf, ← queued]
  · exact CorrectionQueue.exists_arrangement settled inside
  · refine ⟨_, CorrectionQueue.stacked_frontToBack _, ?_⟩
    rw [← text]
    exact CorrectionQueue.apply_eq_overwritten inside
  · intro orderly
    rw [← text]
    exact CorrectionQueue.apply_eq_substituted settled inside orderly

end Run

/-- Three lists found from the back of the source to its front.  Two of them are adjacent, and one that is
    empty stands at the beginning of the first. -/
theorem correctedSource_of_report_adjacentLists : ∃ r c,
    (lint .standard ([] : List (Sink Unit)) (listsRequest "enum a: [:not_a][:not_b]"
      [(16, 24, "not_b"), (8, 16, "not_a"), (8, 8, "not_c")])).outcome = .report r
    ∧ r.corrected = some c ∧ Orderly (edits (r.findings.map (·.finding)))
    ∧ ∃ source row, Arrangement (edits (r.findings.map (·.finding))) row
      ∧ c.text = substituted source 0 row := by
  have done : ∃ r c, (lint .standard ([] : List (Sink Unit)) (listsRequest "enum a: [:not_a][:not_b]"
      [(16, 24, "not_b"), (8, 16, "not_a"), (8, 8, "not_c")])).outcome = .report r
      ∧ r.corrected = some c ∧ Orderly (edits (r.findings.map (·.finding))) :=
    ⟨_, _, rfl, rfl, by decide⟩
  obtain ⟨r, c, h, hc, orderly⟩ := done
  obtain ⟨source, es, -, rfl, -, -, whole⟩ := correctedSource_of_report h hc
  obtain ⟨row, arranged, text⟩ := whole orderly
  exact ⟨r, c, h, hc, orderly, source, row, arranged, text⟩

/-- An empty list that is found before another one at the same offset. -/
def misplacedLists : Json :=
  listsRequest "enum a: [:not_a]" [(8, 8, "not_b"), (8, 16, "not_a")]

/-- The edit of the second cuts off the beginning of the first one's text, and the list that it should
    replace stays. -/
theorem garbled_misplacedLists : ∃ r c,
    (lint .standard ([] : List (Sink Unit)) misplacedLists).outcome = .report r
    ∧ r.corrected = some c ∧ c.text = ("enum a: \x7b:not_a => 0\x7d=> 0\x7d[:not_a]" : Text)
    ∧ ¬ ∃ row, Arrangement (edits (r.findings.map (·.finding))) row
      ∧ c.text = substituted "enum a: [:not_a]" 0 row := by
  let first : Edit := ⟨8, 8, "\x7b:not_b => 0\x7d"⟩
  let second : Edit := ⟨8, 16, "\x7b:not_a => 0\x7d"⟩
  have done : ∃ r c, (lint .standard ([] : List (Sink Unit)) misplacedLists).outcome = .report r
      ∧ r.corrected = some c ∧ c.text = ("enum a: \x7b:not_a => 0\x7d=> 0\x7d[:not_a]" : Text)
      ∧ edits (r.findings.map (·.finding)) = [first, second] := ⟨_, _, rfl, rfl, by decide, by decide⟩
  obtain ⟨r, c, h, hc, text, asked⟩ := done
  refine ⟨r, c, h, hc, text, ?_⟩
  rintro ⟨row, ⟨perm, -⟩, whole⟩
  rw [asked, ← List.mem_permutations'] at perm
  have none : ∀ row ∈ [first, second].permutations',
      ("enum a: \x7b:not_a => 0\x7d=> 0\x7d[:not_a]" : Text)
        ≠ substituted "enum a: [:not_a]" 0 row := by decide
  exact none row perm (text.symm.trans whole)

end NegationLint
