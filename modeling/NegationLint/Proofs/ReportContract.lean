/-
  Reports and their contract.

  A report is written field by field, so most of its contract holds however the run went.  What is left
  depends on the request, on the places of the findings and on the severity that is configured:

  1. `accepts_reportedFinding_iff`, `accepts_lintReport_iff` — what the contract asks of a report: a path
     that is a string, known severities, and places inside a text;
  2. `counts_of_placed` — every node of a document has such a place;
  3. `accepts_reportOf_iff` — so the report of a run keeps its contract exactly if every severity in it is
     known.
-/
import NegationLint.Proofs.Conclusions
import NegationLint.Proofs.Lines
import NegationLint.Proofs.Placement

namespace NegationLint

/-! ## Findings -/

/-- The place is one inside a text: offsets and columns count from zero, lines from one. -/
structure Span.Counts (s : Span) : Prop where
  begin_nonneg : 0 ≤ s.begin
  stop_nonneg : 0 ≤ s.stop
  one_le_line : 1 ≤ s.line
  column_nonneg : 0 ≤ s.column

/-- The contract on findings asks for a known severity and for a place inside a text. -/
theorem accepts_reportedFinding_iff {r : ReportedFinding} :
    Contract.reportedFinding.accepts r.toJson = true
      ↔ r.finding.severity ∈ Contract.severities ∧ r.finding.span.Counts := by
  rw [Contract.reportedFinding, Schema.accepts_record_iff]
  simp only [List.forall_mem_cons, List.not_mem_nil, false_imp_iff, implies_true, and_true]
  constructor
  · rintro ⟨fields, h, -, ⟨-, severity, -, -, begins, ends, line, column, -⟩, -⟩
    obtain rfl := Json.obj.inj h
    have known := Schema.accepts_oneOf_str_iff.1 (severity _ rfl)
    have begin₀ := Schema.accepts_int_iff.1 (begins _ rfl)
    have stop₀ := Schema.accepts_int_iff.1 (ends _ rfl)
    have line₁ := Schema.accepts_int_iff.1 (line _ rfl)
    have column₀ := Schema.accepts_int_iff.1 (column _ rfl)
    exact ⟨known, begin₀, stop₀, line₁, column₀⟩
  · rintro ⟨known, begin₀, stop₀, line₁, column₀⟩
    refine ⟨_, rfl, ?_, ?_, Or.inr ?_⟩
    · exact ⟨⟨_, rfl⟩, ⟨_, rfl⟩, ⟨_, rfl⟩, ⟨_, rfl⟩, ⟨_, rfl⟩, ⟨_, rfl⟩, ⟨_, rfl⟩, ⟨_, rfl⟩, ⟨_, rfl⟩⟩
    · refine ⟨?_, ?_, ?_, ?_, ?_, ?_, ?_, ?_, ?_, ?_⟩
      · exact Schema.accepts_of_lookup rfl rfl
      · exact Schema.accepts_of_lookup rfl (Schema.accepts_oneOf_str_iff.2 known)
      · exact Schema.accepts_of_lookup rfl rfl
      · exact Schema.accepts_of_lookup rfl rfl
      · exact Schema.accepts_of_lookup rfl (Schema.accepts_int_iff.2 begin₀)
      · exact Schema.accepts_of_lookup rfl (Schema.accepts_int_iff.2 stop₀)
      · exact Schema.accepts_of_lookup rfl (Schema.accepts_int_iff.2 line₁)
      · exact Schema.accepts_of_lookup rfl (Schema.accepts_int_iff.2 column₀)
      · exact Schema.accepts_of_lookup rfl rfl
      · exact Schema.accepts_of_lookup rfl rfl
    · -- the keys of a reported finding are those of its contract, in the same order
      intro f hf
      exact List.mem_map_of_mem (f := Prod.fst) hf

/-! ## Reports -/

namespace Report

variable (r : Report)

theorem get?_path : r.toJson.get? "path" = r.path := by
  obtain ⟨findings, path, corrected⟩ := r
  cases path <;> cases corrected <;> rfl

theorem get?_correctionsCount :
    r.toJson.get? "corrections_count" = r.corrected.map fun c => .int c.count := by
  obtain ⟨findings, path, corrected⟩ := r
  cases path <;> cases corrected <;> rfl

theorem get?_correctedSource :
    r.toJson.get? "corrected_source" = r.corrected.map fun c => .str c.text := by
  obtain ⟨findings, path, corrected⟩ := r
  cases path <;> cases corrected <;> rfl

/-- The keys of a report, with or without a path and a corrected source. -/
def keys (path corrected : Bool) : List Text :=
  ["operation", "status", "findings_count", "findings"]
    ++ ((if path then ["path"] else [])
      ++ (if corrected then ["corrections_count", "corrected_source"] else []))

theorem map_fst_fields {fields : List (Text × Json)} (h : r.toJson = .obj fields) :
    fields.map Prod.fst = keys r.path.isSome r.corrected.isSome := by
  obtain rfl := Json.obj.inj h
  obtain ⟨findings, path, corrected⟩ := r
  cases path <;> cases corrected <;> rfl

/-- A report has no keys but those of its contract. -/
theorem mem_of_mem_keys : ∀ path corrected, ∀ key ∈ keys path corrected,
    key ∈ (["operation", "status", "path", "findings_count", "findings", "corrections_count",
      "corrected_source"] : List Text) := by
  decide

end Report

/-- The contract on reports asks for a path that is a string, if there is one, and for findings that keep
    the contract on findings. -/
theorem accepts_lintReport_iff {r : Report} : Contract.lintReport.accepts r.toJson = true
    ↔ (∀ v, r.path = some v → ∃ t, v = .str t)
      ∧ ∀ f ∈ r.findings, f.finding.severity ∈ Contract.severities ∧ f.finding.span.Counts := by
  rw [Contract.accepts, Contract.lintReport, Schema.accepts_record_iff]
  simp only [List.forall_mem_cons, List.not_mem_nil, false_imp_iff, implies_true, and_true]
  constructor
  · rintro ⟨fields, h, -, ⟨-, -, path, -, findings, -⟩, -⟩
    have path₀ : Json.lookup "path" fields = r.path := by
      rw [← r.get?_path, h]
      rfl
    constructor
    · intro v hv
      exact Schema.accepts_anyText_iff.1 (path v (path₀.trans hv))
    · intro f hf
      obtain rfl := Json.obj.inj h
      obtain ⟨listed, same, each⟩ := Schema.accepts_list_iff.1 (findings _ rfl)
      obtain rfl := Json.arr.inj same
      exact accepts_reportedFinding_iff.1 (each _ (List.mem_map_of_mem hf))
  · rintro ⟨path, findings⟩
    have path₀ := r.get?_path
    have count₀ := r.get?_correctionsCount
    have corrected₀ := r.get?_correctedSource
    refine ⟨_, rfl, ?_, ?_, Or.inr ?_⟩
    · exact ⟨⟨_, rfl⟩, ⟨_, rfl⟩, ⟨_, rfl⟩, ⟨_, rfl⟩⟩
    · refine ⟨?_, ?_, ?_, ?_, ?_, ?_, ?_⟩
      · exact Schema.accepts_of_lookup rfl rfl
      · refine Schema.accepts_of_lookup rfl (Schema.accepts_oneOf_str_iff.2 ?_)
        rw [Report.status]
        split <;> simp
      · intro v hv
        exact Schema.accepts_anyText_iff.2 (path v (path₀.symm.trans hv))
      · exact Schema.accepts_of_lookup rfl (Schema.accepts_int_iff.2 (Int.natCast_nonneg _))
      · refine Schema.accepts_of_lookup rfl (Schema.accepts_list_iff.2 ⟨_, rfl, ?_⟩)
        intro v hv
        obtain ⟨f, hf, rfl⟩ := List.mem_map.1 hv
        exact accepts_reportedFinding_iff.2 (findings f hf)
      · intro v hv
        obtain ⟨c, -, rfl⟩ := Option.map_eq_some_iff.1 (count₀.symm.trans hv)
        exact Schema.accepts_int_iff.2 (Int.natCast_nonneg _)
      · intro v hv
        obtain ⟨c, -, rfl⟩ := Option.map_eq_some_iff.1 (corrected₀.symm.trans hv)
        exact Schema.accepts_anyText_iff.2 ⟨_, rfl⟩
    · intro f hf
      have listed := List.mem_map_of_mem (f := Prod.fst) hf
      rw [r.map_fst_fields rfl] at listed
      exact Report.mem_of_mem_keys _ _ _ listed

/-! ## The report of a run -/

/-- A node that stands in a source has a place inside a text. -/
theorem counts_of_placed {t : Text} {n : Node} (h : Placed (Buffer.ofText t) n) : n.span.Counts := by
  obtain ⟨span, begin₀, ordered, bound⟩ := h
  have bound : n.span.stop ≤ t.length := bound
  refine ⟨begin₀, by omega, ?_, ?_⟩
  · rw [span, Buffer.line_span t begin₀]
    omega
  · rw [span, Buffer.column_span_of_le begin₀ (by omega)]
    exact Int.natCast_nonneg _

namespace Lint

variable {settings : Settings} {request : Json} {d : Document}

/-- Whatever is reported, the report of a run keeps its contract exactly if every severity in it is known. -/
theorem accepts_reportOf_iff (accepted : Contract.lintRequest.accepts request = true)
    (loaded : Document.load settings request = .ok d) (queue : CorrectionQueue) :
    Contract.lintReport.accepts
        (reportOf settings request d (findings settings d) queue).toJson = true
      ↔ ∀ f ∈ findings settings d, f.severity ∈ Contract.severities := by
  have path : ∀ v, request.get? "path" = some v → ∃ t, v = .str t := by
    rw [Contract.accepts, Contract.lintRequest, Schema.accepts_record_iff] at accepted
    obtain ⟨fields, rfl, -, properties, -⟩ := accepted
    intro v hv
    obtain ⟨t, same, -⟩ := Schema.accepts_text_iff.1
      (properties ("path", .text 0 (some 4096)) (by simp) v hv)
    exact ⟨t, same⟩
  obtain ⟨source, root, -, hb, -⟩ := Document.load_eq_ok loaded
  have counts : ∀ f ∈ findings settings d, f.span.Counts := by
    intro f hf
    have placed := placed_of_mem_findings loaded hf
    rw [hb] at placed
    exact counts_of_placed placed
  rw [accepts_lintReport_iff]
  constructor
  · rintro ⟨-, kept⟩ f hf
    exact (kept _ (List.mem_map_of_mem hf)).1
  · intro known
    refine ⟨path, ?_⟩
    intro f hf
    obtain ⟨g, hg, rfl⟩ := List.mem_map.1 hf
    exact ⟨known g hg, counts g hg⟩

end Lint

end NegationLint
