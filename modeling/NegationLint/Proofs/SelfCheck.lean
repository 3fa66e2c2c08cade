/-
  The last check on a report.

  Before a run answers with a report it holds the report against the published contract.  That check has
  little to do:

  1. `Conflicting` — two findings of a run ask for different edits of overlapping pieces, and edits are asked
     for and allowed; `clash_iff_conflicting` says that this is when the corrections clash;
  2. `source_of_mem_findings` — what a finding shows is the piece of the source between its offsets;
  3. `outcome_eq_invalidReport_iff` — THE CRUX: the check fails for nothing but a severity that is none of the
     six, and only if there is a finding to carry it;
  4. `report_keeps_contract` — so reports always keep their contract, and with the severities that an
     environment can give the check never fails.
-/
import NegationLint.Proofs.Corrections
import NegationLint.Proofs.Inspection
import NegationLint.Proofs.ReportContract
import NegationLint.Proofs.Stages
import NegationLint.Settings.Environment

namespace NegationLint

open CorrectionQueue (Clash)

namespace Lint

/-- The request asks for a correction and the settings allow one, and two of the findings ask for different
    edits of overlapping pieces. -/
def Conflicting (settings : Settings) (request : Json) (found : List Finding) : Prop :=
  settings.autocorrect = true ∧ request.get? "autocorrect" = some (.bool true)
    ∧ ∃ f ∈ found, ∃ g ∈ found, ∃ e e', f.edit? = some e ∧ g.edit? = some e'
      ∧ f.span.overlaps g.span = true ∧ e ≠ e'

section Run

variable {settings : Settings} {request : Json} {d : Document}

/-- Without the wish for a correction there is none. -/
theorem corrections_of_unwanted (unwanted : wantsCorrection settings request = false)
    (found : List Finding) : corrections settings request found = [] := by
  rw [corrections, unwanted]
  exact List.filterMap_eq_nil_iff.2 fun _ _ => rfl

/-- The corrections of a run clash exactly if its findings conflict. -/
theorem clash_iff_conflicting (loaded : Document.load settings request = .ok d) :
    Clash (corrections settings request (findings settings d))
      ↔ Conflicting settings request (findings settings d) := by
  cases wanted : wantsCorrection settings request with
  | true =>
    obtain ⟨allowed, asked⟩ := wantsCorrection_iff.1 wanted
    rw [clash_iff wanted loaded]
    exact ⟨fun differ => ⟨allowed, asked, differ⟩, fun conflict => conflict.2.2⟩
  | false =>
    rw [corrections_of_unwanted wanted]
    constructor
    · rintro ⟨c, hc, -⟩
      cases hc
    · rintro ⟨allowed, asked, -⟩
      rw [wantsCorrection_iff.2 ⟨allowed, asked⟩] at wanted
      cases wanted

/-- What a finding shows is the piece of the source that it covers. -/
theorem source_of_mem_findings {source : Text} (loaded : Document.load settings request = .ok d)
    (hs : request.get? "source" = some (.str source)) {f : Finding} (hf : f ∈ findings settings d) :
    f.anchor.node.source = source.slice f.span.begin f.span.stop := by
  have walked := anchor_mem_walk hf
  obtain ⟨text, root, env, -, ⟨-, hn⟩ | ⟨n, hn, built⟩⟩ := Document.load_eq_ok loaded
  · rw [Document.walk_of_root_eq_none hn] at walked
    cases walked
  · obtain rfl := Json.str.inj (Option.some.inj (hs.symm.trans env.source_eq))
    rw [Document.walk_of_root_eq_some hn] at walked
    exact Document.source_eq_of_mem_walk built walked

/-- The report of a run keeps its contract unless there is a finding and its severity is unknown. -/
theorem accepts_reportOf_eq_false_iff (accepted : Contract.lintRequest.accepts request = true)
    (loaded : Document.load settings request = .ok d) (queue : CorrectionQueue) :
    Contract.lintReport.accepts (reportOf settings request d (findings settings d) queue).toJson = false
      ↔ findings settings d ≠ [] ∧ settings.severity ∉ Contract.severities := by
  rw [← Bool.not_eq_true, accepts_reportOf_iff accepted loaded queue]
  constructor
  · intro broken
    constructor
    · intro none
      refine broken ?_
      rw [none]
      exact nofun
    · intro known
      refine broken fun f hf => ?_
      rw [severity_of_mem_findings hf]
      exact known
  · rintro ⟨some, unknown⟩ kept
    obtain ⟨f, hf⟩ := List.exists_mem_of_ne_nil _ some
    have known := kept f hf
    rw [severity_of_mem_findings hf] at known
    exact unknown known

end Run

end Lint

section Run

variable {κ : Type} [DecidableEq κ] {settings : Settings} {sinks : List (Sink κ)} {request : Json}

/-- **The crux.**  The last check fails exactly for a request whose document loads without a conflict, if
    there are findings and their severity is unknown. -/
theorem outcome_eq_invalidReport_iff :
    (lint settings sinks request).outcome = .rejected .invalidReport
      ↔ Contract.lintRequest.accepts request = true ∧ ∃ d, Document.load settings request = .ok d
        ∧ ¬ Lint.Conflicting settings request (Lint.findings settings d)
        ∧ Lint.findings settings d ≠ [] ∧ settings.severity ∉ Contract.severities := by
  constructor
  · intro ends
    have done := lints settings sinks request
    generalize lint settings sinks request = run at ends done
    cases done with
    | refused => cases ends
    | @unloaded e => cases e <;> cases ends
    | @linted d accepted loaded =>
      obtain ⟨quiet, refused⟩ := (Lint.conclude_eq_invalidReport_iff settings request d _).1 ends
      rw [Lint.clash_iff_conflicting loaded] at quiet
      rw [Lint.accepts_reportOf_eq_false_iff accepted loaded] at refused
      exact ⟨accepted, d, loaded, quiet, refused⟩
  · rintro ⟨accepted, d, loaded, quiet, unknown⟩
    rw [outcome_of_load accepted loaded, Lint.conclude_eq_invalidReport_iff,
      Lint.clash_iff_conflicting loaded, Lint.accepts_reportOf_eq_false_iff accepted loaded]
    exact ⟨quiet, unknown⟩

/-- What a report lists, and how it counts and sums it up. -/
theorem Report.listed (r : Report) :
    r.toJson.get? "findings" = some (.arr (r.findings.map ReportedFinding.toJson))
    ∧ r.toJson.get? "findings_count" = some (.int (r.findings.map ReportedFinding.toJson).length)
    ∧ r.toJson.get? "status" = some (.str r.status)
    ∧ (r.status = ("offenses" : Text) ↔ r.findings.map ReportedFinding.toJson ≠ []) := by
  obtain ⟨findings, path, corrected⟩ := r
  refine ⟨rfl, ?_, rfl, ?_⟩
  · rw [List.length_map]
    rfl
  · cases findings with
    | nil =>
      have clean : ("clean" : Text) ≠ "offenses" := by decide
      exact ⟨fun h => absurd h clean, fun h => absurd rfl h⟩
    | cons f findings => exact ⟨fun _ => nofun, fun _ => rfl⟩

/-- **Reports keep their contract.**  Whatever is reported is accepted by the published contract, counts what
    it lists, calls it offenses exactly if there is any, and shows for each finding the piece of the source
    between the offsets that it gives.  The answer that the report would break its contract is given exactly
    for a request whose document loads without a conflict, if there are findings and the severity that is
    configured is none of the six; so it is never given with settings from an environment. -/
theorem report_keeps_contract (settings : Settings) (sinks : List (Sink κ)) (request : Json) :
    (∀ r, (lint settings sinks request).outcome = .report r →
      Contract.lintReport.accepts r.toJson = true
      ∧ ∃ source listed status, request.get? "source" = some (.str source)
        ∧ r.toJson.get? "findings" = some (.arr listed)
        ∧ r.toJson.get? "findings_count" = some (.int listed.length)
        ∧ r.toJson.get? "status" = some (.str status) ∧ (status = ("offenses" : Text) ↔ listed ≠ [])
        ∧ ∀ v ∈ listed, ∃ begin stop, v.get? "begin" = some (.int begin)
          ∧ v.get? "end" = some (.int stop) ∧ v.get? "source" = some (.str (source.slice begin stop)))
    ∧ ((lint settings sinks request).outcome.answer?
        = some (errorAnswer "response_validation_failed" "Lint report did not meet the report contract.")
      ↔ Contract.lintRequest.accepts request = true ∧ ∃ d, Document.load settings request = .ok d
        ∧ ¬ Lint.Conflicting settings request (Lint.findings settings d)
        ∧ Lint.findings settings d ≠ [] ∧ settings.severity ∉ Contract.severities)
    ∧ ∀ env : Environment, (lint (Settings.ofEnvironment env) sinks request).outcome.answer?
        ≠ some (errorAnswer "response_validation_failed"
          "Lint report did not meet the report contract.") := by
  have invalid (settings : Settings) := answer?_eq_iff (o := (lint settings sinks request).outcome)
    (r := .invalidReport)
  refine ⟨?_, (invalid settings).trans outcome_eq_invalidReport_iff, ?_⟩
  · intro r h
    obtain ⟨d, loaded, concluded⟩ := exists_load_of_report h
    have kept := isProper_conclude settings request d (Lint.findings settings d)
    rw [concluded] at kept
    obtain ⟨rfl, -⟩ := Lint.eq_reportOf_of_conclude _ _ _ _ concluded
    obtain ⟨source, root, env, -⟩ := Document.load_eq_ok loaded
    obtain ⟨list, count, status, offenses⟩ := (Lint.reportOf settings request d
      (Lint.findings settings d)
      (Lint.corrections settings request (Lint.findings settings d)).eraseDups).listed
    refine ⟨kept, source, _, _, env.source_eq, list, count, status, offenses, ?_⟩
    intro v hv
    obtain ⟨reported, hr, rfl⟩ := List.mem_map.1 hv
    obtain ⟨f, hf, rfl⟩ := List.mem_map.1 hr
    refine ⟨f.span.begin, f.span.stop, rfl, rfl, ?_⟩
    rw [← Lint.source_of_mem_findings loaded env.source_eq hf]
    rfl
  · intro env ends
    obtain ⟨-, d, -, -, -, unknown⟩ :=
      outcome_eq_invalidReport_iff.1 ((invalid (Settings.ofEnvironment env)).1 ends)
    exact unknown (Settings.severity_ofEnvironment_mem env)

end Run

/-- The smallest document with an offense is reported with the standard settings, and its report would break
    its contract with a severity of one's own. -/
theorem report_keeps_contract_unknownSeverity :
    (∃ r, (lint .standard ([] : List (Sink Unit)) Example.document.value).outcome = .report r
      ∧ Contract.lintReport.accepts r.toJson = true
      ∧ ∃ listed, r.toJson.get? "findings" = some (.arr listed) ∧ listed.length = 1
        ∧ r.toJson.get? "findings_count" = some (.int listed.length))
    ∧ (lint { severity := "grave" } ([] : List (Sink Unit)) Example.document.value).outcome.answer?
      = some (errorAnswer "response_validation_failed"
        "Lint report did not meet the report contract.") := by
  have reported : ∃ r, (lint .standard ([] : List (Sink Unit)) Example.document.value).outcome = .report r
      ∧ r.findings.length = 1 := ⟨_, rfl, rfl⟩
  constructor
  · obtain ⟨r, h, one⟩ := reported
    obtain ⟨kept, -, listed, -, -, list, count, -⟩ :=
      (report_keeps_contract .standard ([] : List (Sink Unit)) Example.document.value).1 r h
    obtain rfl := Json.arr.inj (Option.some.inj (list.symm.trans r.listed.1))
    exact ⟨r, h, kept, _, list, by rw [List.length_map, one], count⟩
  · have loads : ∃ d, Document.load { severity := "grave" } Example.document.value = .ok d
        ∧ (Lint.findings { severity := "grave" } d).length = 1 := ⟨_, rfl, rfl⟩
    obtain ⟨d, hd, one⟩ := loads
    refine (report_keeps_contract { severity := "grave" } ([] : List (Sink Unit))
      Example.document.value).2.1.2 ⟨by decide, d, hd, ?_, ?_, by decide⟩
    · rintro ⟨-, asked, -⟩
      cases asked
    · intro none
      rw [none] at one
      cases one

end NegationLint
