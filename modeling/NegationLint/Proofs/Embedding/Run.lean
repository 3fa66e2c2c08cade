/-
  A text around a source: whole runs.

  A run on a source inside a longer text is the run on the source, as long as the longer text is not too
  large.  It stops where the other stops, finds what the other finds, and corrects what the other corrects.

  1. `Outcome.SameWithin` — the same end of a run, said for a source and for a text around it: rejections
     are equal, and reports differ in their places and in what stands around a corrected source;
  2. `findings_embedded`, `corrections_embedded` — findings and corrections are moved one by one;
  3. `sameWithin_reportOf`, `accepts_reportOf_embedded` — so the report is the same within the longer text,
     and its contract holds or fails as before;
  4. `sameWithin_conclude`, `sameWithin_embedded` — the two runs end in the same way.
-/
import NegationLint.Proofs.Corrections
import NegationLint.Proofs.Embedding.Correction
import NegationLint.Proofs.Embedding.Request
import NegationLint.Proofs.ReportContract

namespace NegationLint

/-! ## The same, within a longer text -/

/-- The same finding with `p` in front of the source.  Its column grows by what stands behind the last
    newline of `p`, but only if the finding was on the first line. -/
structure ReportedFinding.SameBehind (p : Text) (f f' : ReportedFinding) : Prop where
  position_eq : f'.finding.anchor.position = f.finding.anchor.position
  source_eq : f'.finding.anchor.node.source = f.finding.anchor.node.source
  enumName_eq : f'.finding.enumName = f.finding.enumName
  severity_eq : f'.finding.severity = f.finding.severity
  correctable_eq : f'.correctable = f.correctable
  begin_eq : f'.finding.span.begin = f.finding.span.begin + p.length
  stop_eq : f'.finding.span.stop = f.finding.span.stop + p.length
  line_eq : f'.finding.span.line = f.finding.span.line + Text.newlines p
  column_eq : f'.finding.span.column
    = if f.finding.span.line = 1 then f.finding.span.column + Text.lastLine p
      else f.finding.span.column

/-- The same report with `p` in front of the source and `q` behind it. -/
structure Report.SameWithin (p q : Text) (r r' : Report) : Prop where
  findings : List.Forall₂ (ReportedFinding.SameBehind p) r.findings r'.findings
  path_eq : r'.path = r.path
  corrected_eq : r'.corrected = r.corrected.map fun c => ⟨c.count, p ++ (c.text ++ q)⟩

/-- The same end of a run with `p` in front of the source and `q` behind it. -/
inductive Outcome.SameWithin (p q : Text) : Outcome → Outcome → Prop
  | report {r r' : Report} (same : r.SameWithin p q r') : SameWithin p q (.report r) (.report r')
  | rejected (rejection : Rejection) : SameWithin p q (.rejected rejection) (.rejected rejection)

theorem ReportedFinding.sameBehind_moved (p : Text) (f : Finding) (correctable : Bool) :
    SameBehind p ⟨f, correctable⟩ ⟨f.moved p, correctable⟩ := by
  have span := f.span_moved p
  refine ⟨rfl, f.source_moved p, rfl, rfl, rfl, ?_, ?_, ?_, ?_⟩
  · show (f.moved p).span.begin = _
    rw [span]
    rfl
  · show (f.moved p).span.stop = _
    rw [span]
    rfl
  · show (f.moved p).span.line = _
    rw [span]
    rfl
  · show (f.moved p).span.column = _
    rw [span]
    rfl

namespace Lint

/-! ## Findings and corrections -/

section Parts

variable (p q : Text) (settings : Settings) (request : Json) (d : Document)

theorem findings_embedded :
    findings settings (d.embedded p q) = (findings settings d).map (Finding.moved p) := by
  rw [findings, findings]
  split
  · show ((d.root.map (Node.moved p)).map (EnumRule.findings settings.severity)).getD [] = _
    cases d.root with
    | none => rfl
    | some root => exact EnumRule.findings_moved p settings.severity root
  · rfl

theorem wantsCorrection_embedded :
    wantsCorrection settings (request.embedded p q) = wantsCorrection settings request := by
  rw [wantsCorrection, wantsCorrection, Json.get?_embedded]
  cases request.get? "autocorrect" with
  | none => rfl
  | some v => rfl

theorem correctionOf_moved (wanted : Bool) (f : Finding) :
    correctionOf wanted (f.moved p) = (correctionOf wanted f).map (Correction.moved p) := by
  cases wanted with
  | true => exact EnumRule.autocorrect_moved p f
  | false => rfl

theorem corrections_embedded (found : List Finding) :
    corrections settings (request.embedded p q) (found.map (Finding.moved p))
      = (corrections settings request found).map (Correction.moved p) := by
  rw [corrections, corrections, wantsCorrection_embedded, List.filterMap_map, List.map_filterMap]
  exact List.filterMap_congr fun f _ => correctionOf_moved p _ f

end Parts

/-! ## Reports -/

section Reports

variable {settings : Settings} {request : Json} {d : Document} {bytes : Nat}

/-- The report on moved findings, with moved corrections, is the same within the longer text. -/
theorem sameWithin_reportOf (p q : Text) (loaded : Document.load settings request = .ok d)
    {queue : CorrectionQueue} (settled : queue.Settled)
    (queued : ∀ c ∈ queue, c ∈ corrections settings request (findings settings d)) :
    (reportOf settings request d (findings settings d) queue).SameWithin p q
      (reportOf settings (request.embedded p q) (d.embedded p q)
        ((findings settings d).map (Finding.moved p)) (queue.map (Correction.moved p))) := by
  refine ⟨?_, ?_, ?_⟩
  · show List.Forall₂ _ ((findings settings d).map _) (((findings settings d).map _).map _)
    rw [List.map_map, List.forall₂_map_left_iff, List.forall₂_map_right_iff, List.forall₂_same]
    intro f _
    have same : (correctionOf (wantsCorrection settings (request.embedded p q)) (f.moved p)).isSome
        = (correctionOf (wantsCorrection settings request) f).isSome := by
      rw [wantsCorrection_embedded, correctionOf_moved, Option.isSome_map]
    show ReportedFinding.SameBehind p ⟨f, _⟩ ⟨f.moved p, _⟩
    rw [same]
    exact ReportedFinding.sameBehind_moved p f _
  · show (request.embedded p q).get? "path" = request.get? "path"
    rw [Json.get?_embedded]
    cases request.get? "path" with
    | none => rfl
    | some v => rfl
  · show (if wantsCorrection settings (request.embedded p q) = true then _ else _)
      = Option.map _ (if wantsCorrection settings request = true then _ else _)
    rw [wantsCorrection_embedded]
    by_cases wanted : wantsCorrection settings request = true
    · have inside : ∀ c ∈ queue, c.edit.Inside d.source.length :=
        fun c hc => (placed_correction wanted loaded (queued c hc)).1
      have applied : CorrectionQueue.apply (queue.map (Correction.moved p)) (d.embedded p q).source
          = p ++ (CorrectionQueue.apply queue d.source ++ q) :=
        CorrectionQueue.apply_embedded p q settled inside
      rw [if_pos wanted, if_pos wanted, applied, List.length_map]
      rfl
    · rw [if_neg wanted, if_neg wanted]
      rfl

/-- A moved report keeps its contract or breaks it as the report did: severities do not move. -/
theorem accepts_reportOf_embedded (p q : Text)
    (accepted : Contract.lintRequest.accepts request = true)
    (loaded : Document.load settings request = .ok d)
    (loaded' : Document.load settings (request.embedded p q) = .ok (d.embedded p q))
    (queue queue' : CorrectionQueue) :
    Contract.lintReport.accepts (reportOf settings (request.embedded p q) (d.embedded p q)
        ((findings settings d).map (Finding.moved p)) queue').toJson
      = Contract.lintReport.accepts
        (reportOf settings request d (findings settings d) queue).toJson := by
  have accepted' : Contract.lintRequest.accepts (request.embedded p q) = true := by
    rw [Json.accepts_lintRequest_embedded]
    exact accepted
  have whole := accepts_reportOf_iff accepted' loaded' queue'
  rw [findings_embedded, List.forall_mem_map] at whole
  rw [Bool.eq_iff_iff, whole, accepts_reportOf_iff accepted loaded queue]
  exact Iff.rfl

/-- What is concluded from the moved findings is the same within the longer text. -/
theorem sameWithin_conclude (p q : Text) (accepted : Contract.lintRequest.accepts request = true)
    (loaded : Document.load settings request = .ok d)
    (loaded' : Document.load settings (request.embedded p q) = .ok (d.embedded p q)) :
    Outcome.SameWithin p q (conclude settings request d (findings settings d))
      (conclude settings (request.embedded p q) (d.embedded p q)
        (findings settings (d.embedded p q))) := by
  have queues := CorrectionQueue.replaceAll_moved p []
    (corrections settings request (findings settings d))
  rw [List.map_nil] at queues
  rw [findings_embedded, conclude, conclude, report?_eq, report?_eq, corrections_embedded, queues]
  cases filled : CorrectionQueue.replaceAll [] (corrections settings request (findings settings d)) with
  | none => exact .rejected .correctionConflict
  | some queue =>
    obtain ⟨rfl, settled⟩ := CorrectionQueue.replaceAll_eq_some filled
    have same := sameWithin_reportOf p q loaded settled fun c hc => List.mem_eraseDups.1 hc
    have kept := accepts_reportOf_embedded p q accepted loaded loaded'
      (corrections settings request (findings settings d)).eraseDups
      ((corrections settings request (findings settings d)).eraseDups.map (Correction.moved p))
    simp only [Option.map_some, kept]
    split
    · exact .report same
    · exact .rejected .invalidReport

end Reports

end Lint

/-! ## Runs -/

section Run

variable {κ : Type} [DecidableEq κ] {settings : Settings} {request : Json} {source : Text} {bytes : Nat}

/-- **A run does not depend on what stands around the source.**  Put any text in front of the source of a
    request whose document loads and any text behind it, and shift the tree to match.  If the longer
    source is not too large, then its document loads as well, and the run ends in the same way: in the
    same rejection, or in the same report within the longer text. -/
theorem sameWithin_embedded (sinks : List (Sink κ)) (p q : Text)
    (loads : ∃ d, Document.load settings request = .ok d)
    (hs : request.get? "source" = some (.str source))
    (size : Text.utf8Size? (p ++ (source ++ q)) = some bytes)
    (small : bytes ≤ settings.maxSourceBytes) :
    (∃ d, Document.load settings (request.embedded p q) = .ok d)
    ∧ Outcome.SameWithin p q (lint settings sinks request).outcome
      (lint settings sinks (request.embedded p q)).outcome := by
  obtain ⟨d, loaded⟩ := loads
  obtain ⟨text, root, env, hb, -⟩ := Document.load_eq_ok loaded
  obtain rfl := Json.str.inj (Option.some.inj (hs.symm.trans env.source_eq))
  rw [← Document.source_of_buffer_eq hb] at size
  have loaded' := Document.load_embedded p q loaded size small
  refine ⟨⟨_, loaded'⟩, ?_⟩
  by_cases accepted : Contract.lintRequest.accepts request = true
  · have accepted' : Contract.lintRequest.accepts (request.embedded p q) = true := by
      rw [Json.accepts_lintRequest_embedded]
      exact accepted
    rw [outcome_of_load accepted loaded, outcome_of_load accepted' loaded']
    exact Lint.sameWithin_conclude p q accepted loaded loaded'
  · -- what makes the request invalid does not go away
    have refused : Contract.lintRequest.accepts request = false := Bool.not_eq_true _ ▸ accepted
    have refused' : Contract.lintRequest.accepts (request.embedded p q) = false := by
      rw [Json.accepts_lintRequest_embedded]
      exact refused
    rw [outcome_of_refused refused, outcome_of_refused refused']
    exact .rejected .invalidRequest

end Run

/-- A declaration with a list on its first line and another one on its second. -/
def twoLineLists : Json :=
  listsRequest "enum a: [:not_a],\n b: [:not_b]" [(8, 16, "not_a"), (22, 30, "not_b")]

/-- Inside a class, the list on the first line moves to the right, and the one on the second stays in its
    column. -/
theorem sameWithin_embedded_twoLineLists : ∃ r r' : Report,
    (lint .standard ([] : List (Sink Unit)) twoLineLists).outcome = .report r
    ∧ (lint .standard ([] : List (Sink Unit)) (twoLineLists.embedded "class A\n  " "\nend")).outcome
      = .report r'
    ∧ r.findings.map (fun f => (f.finding.span.line, f.finding.span.column)) = [(1, 8), (2, 4)]
    ∧ r.SameWithin "class A\n  " "\nend" r' := by
  have done : ∃ r, (lint .standard ([] : List (Sink Unit)) twoLineLists).outcome = .report r
      ∧ r.findings.map (fun f => (f.finding.span.line, f.finding.span.column)) = [(1, 8), (2, 4)] :=
    ⟨_, rfl, by decide⟩
  obtain ⟨r, reported, places⟩ := done
  have size : Text.utf8Size? (("class A\n  " : Text)
      ++ (("enum a: [:not_a],\n b: [:not_b]" : Text) ++ ("\nend" : Text))) = some 44 := by decide
  have small : ((44 : Nat) : Int) ≤ Settings.standard.maxSourceBytes := by decide
  have loads : ∃ d, Document.load .standard twoLineLists = .ok d := ⟨_, rfl⟩
  obtain ⟨-, same⟩ :=
    sameWithin_embedded ([] : List (Sink Unit)) "class A\n  " "\nend" loads rfl size small
  rw [reported] at same
  generalize lint .standard ([] : List (Sink Unit))
    (twoLineLists.embedded "class A\n  " "\nend") = run at same
  obtain ⟨outcome, outbox⟩ := run
  cases same with
  | report same => exact ⟨r, _, reported, rfl, places, same⟩

end NegationLint
