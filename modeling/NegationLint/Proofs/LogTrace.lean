/-
  What a run logs.

  A run writes a record for a document that is refused for its size or its depth, a record for each
  finding that goes to a log, and a record at its end.  Here is the whole log of a run, line by line, for
  every end that a run can have:

  1. `log_of_refused`, `log_of_error`, `log_of_load` — the records of a run whose findings go to any sinks,
     and `log_of_deep`, `log_of_misshapen` — the records of a document within the limit on its source;
  2. `sizeLine`, `depthLine`, `warningLine`, `closingLine` — how a line reads;
  3. `lines_of_lint` — THE LOG of a run whose findings go to one log.
-/
import NegationLint.Proofs.Corrections
import NegationLint.Proofs.Deliveries
import NegationLint.Proofs.Stages

namespace NegationLint

open Json (Envelope)

/-! ## Records -/

section Run

variable {κ : Type} [DecidableEq κ] {settings : Settings} {sinks : List (Sink κ)}
variable {request root : Json} {source : Text} {bytes : Nat}

theorem log_of_refused (refused : Contract.lintRequest.accepts request = false) :
    (lint settings sinks request).outbox.log = [] := by
  rw [outbox_of_refused refused]
  rfl

/-- The run of a document that loads warns of its findings and then closes. -/
theorem log_of_load {d : Document} (accepted : Contract.lintRequest.accepts request = true)
    (loaded : Document.load settings request = .ok d) :
    (lint settings sinks request).outbox.log
      = (Lint.findings settings d).flatMap (fun f => sinks.filterMap (Sink.record? f))
        ++ Lint.closingRecords (lint settings sinks request).outcome := by
  rw [outbox_of_load accepted loaded, Outbox.log_foldl_addRecord, Outbox.log_emitAll]
  rfl

variable (accepted : Contract.lintRequest.accepts request = true)

include accepted

theorem log_of_error {e : LoadError} (failed : Document.load settings request = .error e) :
    (lint settings sinks request).outbox.log = e.record?.toList := by
  rw [outbox_of_error accepted failed]
  cases e.record? <;> rfl

variable (env : Envelope request source root)

include env

theorem log_of_deep (size : source.utf8Size? = some bytes) (small : bytes ≤ settings.maxSourceBytes)
    (solid : root ≠ .null) (deep : settings.maxDepth < root.height) :
    (lint settings sinks request).outbox.log = [.treeRejected root.height settings.maxDepth] :=
  log_of_error accepted ((Document.load_of_small env size small).trans
    (Document.loadTree_of_deep (env.kind.resolve_right solid) deep))

/-- A document within the limits that does not load has a fault in its tree, of which nothing is logged. -/
theorem log_of_misshapen (size : source.utf8Size? = some bytes)
    (small : bytes ≤ settings.maxSourceBytes) (shallow : root ≠ .null → root.height ≤ settings.maxDepth)
    {e : LoadError} (failed : Document.load settings request = .error e) :
    (lint settings sinks request).outbox.log = [] := by
  have fault := Document.failure?_load env size small shallow
  rw [failed] at fault
  obtain ⟨slot, -, own⟩ := List.exists_of_findSome?_eq_some fault.symm
  rw [log_of_error accepted failed, Document.record?_of_ownFault? own]
  rfl

end Run

/-! ## Lines -/

/-- The line for a source of so many bytes. -/
def sizeLine (bytes : Nat) (limit : Int) : Text :=
  ("INFO Rejected source buffer of " : Text) ++ Text.ofNat bytes ++ (" bytes (limit " : Text)
    ++ Text.ofInt limit ++ (")" : Text)

/-- The line for a tree of this height. -/
def depthLine (height : Nat) (limit : Int) : Text :=
  ("INFO Rejected AST of depth " : Text) ++ Text.ofNat height ++ (" (limit " : Text)
    ++ Text.ofInt limit ++ (")" : Text)

/-- The line that warns of a finding: where it is, counted from one, the letter of its severity, the rule
    and what the rule has to say. -/
def warningLine (path : Text) (f : Finding) : Text :=
  ("WARNING " : Text) ++ path ++ (":" : Text) ++ Text.ofInt f.span.line ++ (":" : Text)
    ++ Text.ofInt (f.span.column + 1) ++ (": " : Text) ++ (f.severity.take 1).flatMap CodePoint.toUpper
    ++ (": " : Text) ++ ruleName ++ (": " : Text) ++ ruleMessage

/-- The line at the end of a run that reports so many findings. -/
def closingLine (count : Nat) : Text :=
  ("DEBUG Linted document with " : Text) ++ Text.ofNat count ++ (" finding(s)" : Text)

/-- What a run has logged, line by line. -/
def LintRun.lines {κ : Type} (run : LintRun κ) : List Text := run.outbox.log.map LogRecord.line

section Lines

variable {κ : Type} [DecidableEq κ]

/-- The lines of a run that finds something, with a line at the end if it reports. -/
theorem lines_of_load {settings : Settings} {request : Json} {d : Document}
    (accepted : Contract.lintRequest.accepts request = true)
    (loaded : Document.load settings request = .ok d) (path : Text) :
    (lint settings [(.log path : Sink κ)] request).lines
      = (Lint.findings settings d).map (warningLine path)
        ++ (Lint.closingRecords (lint settings [(.log path : Sink κ)] request).outcome).map
          LogRecord.line := by
  have one : (fun f => [(.log path : Sink κ)].filterMap (Sink.record? f))
      = fun f => [LogRecord.offense path f] := rfl
  rw [LintRun.lines, log_of_load accepted loaded, one, ← List.map_eq_flatMap, List.map_append,
    List.map_map]
  rfl

/-- **The log of a run.**  Let the findings of a run go to the log under some path.  Then the run logs
    nothing for an invalid request and for a source that cannot be encoded; one line for a source that is
    too large, with its bytes and the limit; one line for a tree that is too deep, with its height and the
    limit; and nothing for any other fault of a document.  For a document that loads it logs a warning for
    each finding in order, and behind these one line with their number exactly if it reports. -/
theorem lines_of_lint (settings : Settings) (path : Text) (request : Json) :
    let run := lint settings [(.log path : Sink κ)] request
    (Contract.lintRequest.accepts request = false → run.lines = [])
    ∧ (Contract.lintRequest.accepts request = true → ∃ source root,
      request.get? "source" = some (.str source) ∧ request.get? "ast" = some root
      ∧ (source.utf8Size? = none → run.lines = [])
      ∧ ∀ bytes, source.utf8Size? = some bytes →
        (settings.maxSourceBytes < bytes → run.lines = [sizeLine bytes settings.maxSourceBytes])
        ∧ (bytes ≤ settings.maxSourceBytes → root ≠ .null → settings.maxDepth < root.height →
          run.lines = [depthLine root.height settings.maxDepth])
        ∧ (bytes ≤ settings.maxSourceBytes → (root ≠ .null → root.height ≤ settings.maxDepth) →
          ∀ e, Document.load settings request = .error e → run.lines = []))
    ∧ (Contract.lintRequest.accepts request = true → ∀ d, Document.load settings request = .ok d →
      let warnings := (Lint.findings settings d).map (warningLine path)
      (∀ r, run.outcome = .report r → run.lines = warnings ++ [closingLine warnings.length])
      ∧ ((∀ r, run.outcome ≠ .report r) → run.lines = warnings)) := by
  intro run
  have lines {records : List LogRecord} (h : run.outbox.log = records) :
      run.lines = records.map LogRecord.line := congrArg (List.map LogRecord.line) h
  refine ⟨fun refused => lines (log_of_refused refused), ?_, ?_⟩
  · intro accepted
    obtain ⟨source, root, env⟩ :=
      Json.accepts_astDocument_iff.1 (Json.accepts_astDocument_of_lintRequest accepted)
    refine ⟨source, root, env.source_eq, env.root_eq, ?_, ?_⟩
    · intro size
      exact lines (log_of_error accepted (Document.load_of_unencodable env size))
    · intro bytes size
      refine ⟨?_, ?_, ?_⟩
      · intro large
        exact lines (log_of_error accepted (Document.load_of_large env size large))
      · intro small solid deep
        exact lines (log_of_deep accepted env size small solid deep)
      · intro small shallow e failed
        exact lines (log_of_misshapen accepted env size small shallow failed)
  · intro accepted d loaded warnings
    have written : run.lines = warnings ++ (Lint.closingRecords run.outcome).map LogRecord.line :=
      lines_of_load accepted loaded path
    constructor
    · intro r reports
      obtain ⟨d', loaded', concluded⟩ := exists_load_of_report reports
      obtain rfl := Except.ok.inj (loaded.symm.trans loaded')
      obtain ⟨same, -⟩ := Lint.eq_reportOf_of_conclude _ _ _ _ concluded
      -- a report has as many findings as the run has warned of
      have counted : r.findings.length = warnings.length := by
        rw [same, Lint.reportOf, List.length_map, List.length_map]
      rw [written, reports, ← counted]
      rfl
    · intro none
      rw [written]
      cases ends : run.outcome with
      | report r => exact absurd ends (none r)
      | _ => exact List.append_nil _

end Lines

/-- A request for corrections that clash: both findings are warned of, and nothing is logged behind. -/
theorem lines_of_lint_nestedLists :
    let request := listsRequest "enum a: [:not_a]" [(8, 16, "not_a"), (9, 15, "not_b")]
    let run := lint .standard [(.log "a.rb" : Sink Unit)] request
    let warning (column : Text) : Text := ("WARNING a.rb:1:" : Text) ++ column
      ++ (": C: Rails/EnumNegative: " : Text) ++ ruleMessage
    Contract.lintRequest.accepts request = true
    ∧ run.outcome = .rejected .correctionConflict
    ∧ run.lines = [warning "9", warning "10"] := by
  intro request run warning
  have accepted : Contract.lintRequest.accepts request = true := by decide
  have loads : ∃ d, Document.load .standard request = .ok d
      ∧ (Lint.findings .standard d).map (warningLine "a.rb") = [warning "9", warning "10"] :=
    ⟨_, rfl, rfl⟩
  obtain ⟨d, hd, warnings⟩ := loads
  have conflict : run.outcome = .rejected .correctionConflict := rfl
  obtain ⟨-, -, behind⟩ := @lines_of_lint Unit _ .standard "a.rb" request
  have unreported : ∀ r, run.outcome ≠ .report r := by
    intro r h
    rw [conflict] at h
    cases h
  exact ⟨accepted, conflict, ((behind accepted d hd).2 unreported).trans warnings⟩

end NegationLint
