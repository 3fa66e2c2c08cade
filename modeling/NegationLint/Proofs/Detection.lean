/-
  Corrections leave detection alone.

  Two requests on the same source and the same tree may differ in their wish for a correction and in their
  path, and the settings of two runs in whether they allow a correction.  None of this has an effect on what
  is found and who is told:

  1. `load_of_same_document`, `findings_of_autocorrect` — the two runs load the same document and find the
     same in it;
  2. `SameFindings` — two answers that list the same findings, read field by field, and
     `sameFindings_of_map_finding_eq` — two reports on the same findings are such answers;
  3. `IsFullReport` — what a single report shows of its own run, and `isFullReport_of_report`;
  4. `detection_ignores_correction` — the sinks of both runs are given the same, also where one run ends
     early, and two reports list the same.
-/
import NegationLint.Proofs.Corrections
import NegationLint.Proofs.Deliveries
import NegationLint.Proofs.Inspection
import NegationLint.Proofs.ReportContract

namespace NegationLint

/-! ## Two runs -/

section Same

variable {settings : Settings} {request request' : Json}

/-- Loading reads the source and the tree of a request, and of the settings only the two limits. -/
theorem load_of_same_document (accepted : Contract.lintRequest.accepts request = true)
    (accepted' : Contract.lintRequest.accepts request' = true)
    (source : request'.get? "source" = request.get? "source")
    (ast : request'.get? "ast" = request.get? "ast") (allowed : Bool) :
    Document.load { settings with autocorrect := allowed } request' = Document.load settings request := by
  obtain ⟨text, root, env⟩ :=
    Json.accepts_astDocument_iff.1 (Json.accepts_astDocument_of_lintRequest accepted)
  obtain ⟨text', root', env'⟩ :=
    Json.accepts_astDocument_iff.1 (Json.accepts_astDocument_of_lintRequest accepted')
  have sameText : text' = text := Json.str.inj
    (Option.some.inj ((env'.source_eq.symm.trans source).trans env.source_eq))
  have sameRoot : root' = root := Option.some.inj ((env'.root_eq.symm.trans ast).trans env.root_eq)
  rw [Document.load_of_envelope env, Document.load_of_envelope env', sameText, sameRoot]
  rfl

theorem findings_of_autocorrect (d : Document) (allowed : Bool) :
    Lint.findings { settings with autocorrect := allowed } d = Lint.findings settings d := rfl

end Same

/-! ## Two reports -/

/-- A field at the end does not hide the fields with other keys. -/
theorem Json.lookup_concat_of_ne {key k : Text} (ne : key ≠ k) (v : Json) (fields : List (Text × Json)) :
    lookup key (fields ++ [(k, v)]) = lookup key fields := by
  induction fields with
  | nil => exact if_neg fun h => ne h.symm
  | cons f fields ih =>
    obtain ⟨k', w⟩ := f
    rw [List.cons_append, lookup, lookup, ih]

/-- The two answers list the same findings: they sum them up by the same word and the same number, and each
    finding has the same fields in both, but for the one that says whether it can be corrected. -/
structure SameFindings (answer answer' : Json) : Prop where
  status_eq : answer'.get? "status" = answer.get? "status"
  count_eq : answer'.get? "findings_count" = answer.get? "findings_count"
  findings : ∃ listed listed', answer.get? "findings" = some (.arr listed)
    ∧ answer'.get? "findings" = some (.arr listed')
    ∧ List.Forall₂ (fun v v' => ∀ key, key ≠ ("correctable" : Text) → v'.get? key = v.get? key)
      listed listed'

/-- Two reports on the same findings list the same findings. -/
theorem sameFindings_of_map_finding_eq {r r' : Report}
    (h : r.findings.map (·.finding) = r'.findings.map (·.finding)) :
    SameFindings r.toJson r'.toJson := by
  have length : r'.findings.length = r.findings.length := by
    have := congrArg List.length h
    rw [List.length_map, List.length_map] at this
    exact this.symm
  have each : List.Forall₂ (fun f f' => f.finding = f'.finding) r.findings r'.findings := by
    rw [← List.forall₂_eq_eq_eq, List.forall₂_map_left_iff, List.forall₂_map_right_iff] at h
    exact h
  refine ⟨?_, ?_, _, _, rfl, rfl, ?_⟩
  · show some (Json.str r'.status) = some (.str r.status)
    have both : r'.findings.isEmpty = r.findings.isEmpty := by
      rw [Bool.eq_iff_iff, List.isEmpty_iff_length_eq_zero, List.isEmpty_iff_length_eq_zero, length]
    rw [Report.status, Report.status, both]
  · show some (Json.int r'.findings.length) = some (.int r.findings.length)
    rw [length]
  · rw [List.forall₂_map_left_iff, List.forall₂_map_right_iff]
    refine each.imp ?_
    intro f f' same key ne
    show Json.lookup key (f'.finding.fields ++ [Json.field "correctable" (.bool f'.correctable)])
      = Json.lookup key (f.finding.fields ++ [Json.field "correctable" (.bool f.correctable)])
    rw [Json.field, Json.field, Json.lookup_concat_of_ne ne, Json.lookup_concat_of_ne ne, same]

/-! ## One report -/

section Run

variable {κ : Type} [DecidableEq κ]

/-- The report shows what the run was asked for: all findings that the sinks were given, the path of the
    request, and a correction exactly if one was asked for and allowed. -/
structure IsFullReport (settings : Settings) (sinks : List (Sink κ)) (request : Json) (r : Report) :
    Prop where
  received_eq : ∀ sink, (lint settings sinks request).outbox.received sink
    = Sink.share sinks sink (r.findings.map (·.finding))
  path_eq : r.toJson.get? "path" = request.get? "path"
  count : (∃ v, r.toJson.get? "corrections_count" = some v)
    ↔ request.get? "autocorrect" = some (.bool true) ∧ settings.autocorrect = true
  corrected : (∃ v, r.toJson.get? "corrected_source" = some v)
    ↔ request.get? "autocorrect" = some (.bool true) ∧ settings.autocorrect = true

theorem isFullReport_of_report {settings : Settings} {sinks : List (Sink κ)} {request : Json}
    {r : Report} (accepted : Contract.lintRequest.accepts request = true)
    (h : (lint settings sinks request).outcome = .report r) :
    IsFullReport settings sinks request r := by
  obtain ⟨d, loaded, concluded⟩ := exists_load_of_report h
  obtain ⟨rfl, -⟩ := Lint.eq_reportOf_of_conclude _ _ _ _ concluded
  -- both fields of a correction are there if one is wanted
  have made {α : Type} (c : α) : (∃ v, (if Lint.wantsCorrection settings request = true then some c
      else none) = some v)
      ↔ request.get? "autocorrect" = some (.bool true) ∧ settings.autocorrect = true := by
    rw [and_comm, ← Lint.wantsCorrection_iff]
    cases Lint.wantsCorrection settings request <;> simp
  refine ⟨?_, Report.get?_path _, ?_, ?_⟩
  · intro sink
    rw [Lint.map_finding_reportOf]
    exact received_of_load accepted loaded sink
  · rw [Report.get?_correctionsCount, Lint.reportOf, apply_ite (Option.map _)]
    exact made _
  · rw [Report.get?_correctedSource, Lint.reportOf, apply_ite (Option.map _)]
    exact made _

/-! ## Whatever is corrected -/

/-- **Corrections leave detection alone.**  Take two valid requests with the same source and the same tree,
    and settings that are the same but for allowing corrections.  Every sink is given the same findings in
    the same order by both runs: none if the document does not load, and otherwise all that there are,
    however the runs end.  If both runs report, their reports list the same findings, those that the sinks
    were given; each has the fields of a correction exactly if its own run was asked for one and may make
    it, and the path exactly if its own request has one. -/
theorem detection_ignores_correction (settings : Settings) (allowed : Bool) (sinks : List (Sink κ))
    {request request' : Json} (accepted : Contract.lintRequest.accepts request = true)
    (accepted' : Contract.lintRequest.accepts request' = true)
    (source : request'.get? "source" = request.get? "source")
    (ast : request'.get? "ast" = request.get? "ast") :
    (∀ sink, (lint { settings with autocorrect := allowed } sinks request').outbox.received sink
      = (lint settings sinks request).outbox.received sink)
    ∧ (∀ e, Document.load settings request = .error e →
      ∀ sink, (lint settings sinks request).outbox.received sink = [])
    ∧ (∀ d, Document.load settings request = .ok d →
      ∀ sink, (lint settings sinks request).outbox.received sink = Sink.share sinks sink
        (if settings.enabled then d.walk.flatMap (EnumRule.findingsAt settings.severity) else []))
    ∧ ∀ r r', (lint settings sinks request).outcome = .report r →
      (lint { settings with autocorrect := allowed } sinks request').outcome = .report r' →
      SameFindings r.toJson r'.toJson ∧ IsFullReport settings sinks request r
        ∧ IsFullReport { settings with autocorrect := allowed } sinks request' r' := by
  have same : Document.load { settings with autocorrect := allowed } request'
      = Document.load settings request :=
    load_of_same_document accepted accepted' source ast allowed
  refine ⟨?_, ?_, ?_, ?_⟩
  · intro sink
    cases loaded : Document.load settings request with
    | error e => rw [received_of_error accepted loaded, received_of_error accepted' (same.trans loaded)]
    | ok d =>
      rw [received_of_load accepted loaded, received_of_load accepted' (same.trans loaded),
        findings_of_autocorrect]
  · intro e failed
    exact received_of_error accepted failed
  · intro d loaded sink
    rw [received_of_load accepted loaded, Lint.findings_eq]
  · intro r r' h h'
    refine ⟨sameFindings_of_map_finding_eq ?_, isFullReport_of_report accepted h,
      isFullReport_of_report accepted' h'⟩
    obtain ⟨d, loaded, concluded⟩ := exists_load_of_report h
    obtain ⟨d', loaded', concluded'⟩ := exists_load_of_report h'
    obtain rfl := Except.ok.inj ((same.trans loaded).symm.trans loaded')
    obtain ⟨rfl, -⟩ := Lint.eq_reportOf_of_conclude _ _ _ _ concluded
    obtain ⟨rfl, -⟩ := Lint.eq_reportOf_of_conclude _ _ _ _ concluded'
    rw [Lint.map_finding_reportOf, Lint.map_finding_reportOf]
    exact (findings_of_autocorrect d allowed).symm

end Run

/-- A document with two lists that overlap, the second inside the first. -/
def nestedLists (wishes : List (Text × Json)) : Json :=
  .obj (("source", .str "enum a: [:not_a]")
    :: ("ast", Example.node "send" 0 16 [.null, .str "enum", Example.node "hash" 0 16 [
      Example.node "pair" 8 16 [Example.symbol 8 8 "a",
        Example.node "array" 8 16 [Example.symbol 8 16 "not_a"]],
      Example.node "pair" 9 15 [Example.symbol 9 9 "b",
        Example.node "array" 9 15 [Example.symbol 9 15 "not_b"]]]])
    :: wishes)

/-- Whoever asks for a correction of these lists is told of the conflict only.  The sink is given both
    findings all the same, as by a run that reports them. -/
theorem detection_ignores_correction_nestedLists :
    let asked := nestedLists [("autocorrect", .bool true)]
    let named := nestedLists [("path", .str "a.rb")]
    let sink : Sink Unit := .memory ()
    (lint .standard [sink] asked).outcome = .rejected .correctionConflict
    ∧ (∃ r, (lint .standard [sink] named).outcome = .report r)
    ∧ ∃ d, Document.load .standard asked = .ok d
      ∧ (d.walk.flatMap (EnumRule.findingsAt "convention")).length = 2
      ∧ (lint .standard [sink] asked).outbox.received sink
        = d.walk.flatMap (EnumRule.findingsAt "convention")
      ∧ (lint .standard [sink] named).outbox.received sink
        = d.walk.flatMap (EnumRule.findingsAt "convention") := by
  intro asked named sink
  have loads : ∃ d, Document.load .standard asked = .ok d
      ∧ (d.walk.flatMap (EnumRule.findingsAt "convention")).length = 2 := ⟨_, rfl, rfl⟩
  obtain ⟨d, hd, two⟩ := loads
  have accepted : Contract.lintRequest.accepts asked = true := by decide
  have accepted' : Contract.lintRequest.accepts named = true := by decide
  obtain ⟨same, -, given, -⟩ :=
    detection_ignores_correction .standard true [sink] accepted accepted' rfl rfl
  have all := (given d hd sink).trans (Sink.share_singleton sink _)
  exact ⟨rfl, ⟨_, rfl⟩, d, hd, two, all, (same sink).trans all⟩

end NegationLint
