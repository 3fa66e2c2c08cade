/-
  How the run of a document that loads ends.

  Once a document is loaded and inspected, three things are left to decide, in this order: whether two
  corrections clash, what the report says, and whether the report keeps its contract.

  1. `corrections`, `reportOf` — what a run queues, and what it reports with the queue at hand;
  2. `Concludes` — the three ways to end, each with what led to it, and `concludes`;
  3. `outcome_of_load` — a run whose document loads ends like this, and `exists_load_of_report` — only
     such a run reports.
-/
import NegationLint.Proofs.Answers
import NegationLint.Proofs.Queue

namespace NegationLint

namespace Lint

open CorrectionQueue (Settled Clash replaceAll replaceAll_spec replaceAll_eq_none_iff replaceAll_eq_some)

section Conclusion

variable (settings : Settings) (request : Json) (d : Document) (found : List Finding)

/-- The corrections that a run queues, in the order of the findings. -/
def corrections : List Correction := found.filterMap (correctionOf (wantsCorrection settings request))

/-- The report on the findings with their corrections queued. -/
def reportOf (queue : CorrectionQueue) : Report where
  findings := found.map fun f => ⟨f, (correctionOf (wantsCorrection settings request) f).isSome⟩
  path := request.get? "path"
  corrected :=
    if wantsCorrection settings request then some ⟨queue.length, queue.apply d.source⟩ else none

/-- A report is on its findings, in their order. -/
theorem map_finding_reportOf (queue : CorrectionQueue) :
    (reportOf settings request d found queue).findings.map (·.finding) = found := by
  show (found.map _).map _ = found
  rw [List.map_map]
  exact List.map_id found

/-- There is a corrected source only if one is wanted: the source with the queue applied. -/
theorem corrected_reportOf {queue : CorrectionQueue} {c : CorrectedSource}
    (h : (reportOf settings request d found queue).corrected = some c) :
    wantsCorrection settings request = true ∧ c = ⟨queue.length, queue.apply d.source⟩ := by
  have made : (if wantsCorrection settings request = true then _ else none) = some c := h
  split at made
  · rename_i wanted
    exact ⟨wanted, (Option.some.inj made).symm⟩
  · cases made

theorem report?_eq : report? settings request d found
    = (replaceAll [] (corrections settings request found)).map
      (reportOf settings request d found) := by
  rw [report?]
  show (replaceAll [] (corrections settings request found)).bind _ = _
  cases replaceAll [] (corrections settings request found) <;> rfl

/-- How a run can end after the findings, and why. -/
inductive Concludes : Outcome → Prop
  | clash (clash : Clash (corrections settings request found)) :
    Concludes (.rejected .correctionConflict)
  | invalid (settled : Settled (corrections settings request found).eraseDups)
    (refused : Contract.lintReport.accepts (reportOf settings request d found
      (corrections settings request found).eraseDups).toJson = false) :
    Concludes (.rejected .invalidReport)
  | report (settled : Settled (corrections settings request found).eraseDups)
    (accepted : Contract.lintReport.accepts (reportOf settings request d found
      (corrections settings request found).eraseDups).toJson = true) :
    Concludes (.report (reportOf settings request d found
      (corrections settings request found).eraseDups))

/-- It ends in one of these ways. -/
theorem concludes : Concludes settings request d found (conclude settings request d found) := by
  rw [conclude, report?_eq]
  rcases replaceAll_spec (corrections settings request found) with
    ⟨taken, settled⟩ | ⟨refused, clash⟩
  · rw [taken]
    show Concludes settings request d found
      (if Contract.lintReport.accepts (reportOf settings request d found
        (corrections settings request found).eraseDups).toJson = true then _ else _)
    cases accepted : Contract.lintReport.accepts (reportOf settings request d found
        (corrections settings request found).eraseDups).toJson with
    | false => exact .invalid settled accepted
    | true => exact .report settled accepted
  · rw [refused]
    exact .clash clash

/-- Only a clash ends in a conflict. -/
theorem conclude_eq_conflict_iff :
    conclude settings request d found = .rejected .correctionConflict
      ↔ Clash (corrections settings request found) := by
  rw [← replaceAll_eq_none_iff, conclude, report?_eq]
  cases replaceAll [] (corrections settings request found) with
  | none => exact ⟨fun _ => rfl, fun _ => rfl⟩
  | some queue =>
    constructor
    · -- a report that breaks its contract is refused for that reason
      intro h
      simp only [Option.map_some] at h
      split at h <;> cases h
    · intro none
      cases none

/-- Only a report that breaks its contract is refused for that reason, and only if nothing clashes. -/
theorem conclude_eq_invalidReport_iff :
    conclude settings request d found = .rejected .invalidReport
      ↔ ¬ Clash (corrections settings request found)
        ∧ Contract.lintReport.accepts (reportOf settings request d found
          (corrections settings request found).eraseDups).toJson = false := by
  rw [← replaceAll_eq_none_iff, conclude, report?_eq]
  cases filled : replaceAll [] (corrections settings request found) with
  | none =>
    constructor
    · intro h
      cases h
    · rintro ⟨taken, -⟩
      exact absurd rfl taken
  | some queue =>
    obtain ⟨rfl, -⟩ := replaceAll_eq_some filled
    simp only [Option.map_some]
    split
    · rename_i accepted
      constructor
      · intro h
        cases h
      · rintro ⟨-, refused⟩
        rw [accepted] at refused
        cases refused
    · rename_i refused
      exact ⟨fun _ => ⟨Option.some_ne_none _, Bool.not_eq_true _ ▸ refused⟩, fun _ => rfl⟩

/-- What is reported is the report on the findings, each correction queued once. -/
theorem eq_reportOf_of_conclude {r : Report} (h : conclude settings request d found = .report r) :
    r = reportOf settings request d found (corrections settings request found).eraseDups
      ∧ Settled (corrections settings request found).eraseDups := by
  have done := concludes settings request d found
  rw [h] at done
  cases done with
  | report settled => exact ⟨rfl, settled⟩

end Conclusion

end Lint

section Run

variable {κ : Type} [DecidableEq κ] {settings : Settings} {sinks : List (Sink κ)} {request : Json}

theorem outcome_of_refused (refused : Contract.lintRequest.accepts request = false) :
    (lint settings sinks request).outcome = .rejected .invalidRequest := by
  rw [lint, refused]
  rfl

theorem outcome_of_error {e : LoadError} (accepted : Contract.lintRequest.accepts request = true)
    (failed : Document.load settings request = .error e) :
    (lint settings sinks request).outcome = e.outcome := by
  rw [lint, accepted, failed]
  rfl

/-- The run of a document that loads ends as its findings conclude. -/
theorem outcome_of_load {d : Document} (accepted : Contract.lintRequest.accepts request = true)
    (loaded : Document.load settings request = .ok d) :
    (lint settings sinks request).outcome
      = Lint.conclude settings request d (Lint.findings settings d) := by
  rw [lint, accepted, loaded]
  rfl

theorem outbox_of_refused (refused : Contract.lintRequest.accepts request = false) :
    (lint settings sinks request).outbox = .empty := by
  rw [lint, refused]
  rfl

theorem outbox_of_error {e : LoadError} (accepted : Contract.lintRequest.accepts request = true)
    (failed : Document.load settings request = .error e) :
    (lint settings sinks request).outbox = e.record?.elim .empty Outbox.empty.addRecord := by
  rw [lint, accepted, failed]
  rfl

/-- The run of a document that loads delivers its findings and then closes. -/
theorem outbox_of_load {d : Document} (accepted : Contract.lintRequest.accepts request = true)
    (loaded : Document.load settings request = .ok d) :
    (lint settings sinks request).outbox
      = (Lint.closingRecords (lint settings sinks request).outcome).foldl Outbox.addRecord
        (Outbox.empty.emitAll sinks (Lint.findings settings d)) := by
  rw [outcome_of_load accepted loaded, lint, accepted, loaded]
  rfl

/-- A run that reports has loaded its document. -/
theorem exists_load_of_report {r : Report}
    (h : (lint settings sinks request).outcome = .report r) :
    ∃ d, Document.load settings request = .ok d
      ∧ Lint.conclude settings request d (Lint.findings settings d) = .report r := by
  have done := lints settings sinks request
  generalize lint settings sinks request = run at h done
  cases done with
  | refused => cases h
  | @unloaded e => cases e <;> cases h
  | linted _ loaded => exact ⟨_, loaded, h⟩

end Run

end NegationLint
