/-
  Linting one document.

  A request is a document with an optional wish for a correction and an optional path.  A run goes
  through these stages, and the first that fails decides the answer:

  1. the request keeps the contract `lintRequest`;
  2. the document loads;
  3. the rule runs on every node in pre-order, unless it is disabled; each finding is delivered as
     it is found to the sinks that the caller has added;
  4. if the request asks for a correction and the settings allow one, the findings that can be
     corrected are corrected, and no two corrections may clash;
  5. the report keeps the contract `lintReport`.

  Deliveries and log records are part of the result, also of a run that ends in a rejection.
-/
import NegationLint.Diagnostics
import NegationLint.Report
import NegationLint.Tree.Document

namespace NegationLint

/-- The record of a document that is refused for its size or its depth. -/
def LoadError.record? : LoadError → Option LogRecord
  | tooLarge bytes limit => some (.sourceRejected bytes limit)
  | tooDeep depth limit => some (.treeRejected depth limit)
  | _ => none

/-- What a run answers to a document that does not load. -/
def LoadError.outcome : LoadError → Outcome
  | tooLarge _ _ => .rejected .sourceTooLarge
  | decimalOffset => .fault
  | _ => .rejected .unloadable

/-- The end of a run, with all that it has delivered and logged on the way. -/
structure LintRun (κ : Type) where
  outcome : Outcome
  outbox : Outbox κ

namespace Lint

/-- The findings at a document, in pre-order of the declarations. -/
def findings (settings : Settings) (d : Document) : List Finding :=
  if settings.enabled then (d.root.map (EnumRule.findings settings.severity)).getD [] else []

/-- The request asks for a correction, and the settings allow one. -/
def wantsCorrection (settings : Settings) (request : Json) : Bool :=
  settings.autocorrect && match request.get? "autocorrect" with
    | some (.bool b) => b
    | _ => false

/-- The correction of a finding, if there is one and one is wanted. -/
def correctionOf (wanted : Bool) (f : Finding) : Option Correction :=
  if wanted then EnumRule.autocorrect f else none

/-- The report on a document's findings; none if two corrections clash. -/
def report? (settings : Settings) (request : Json) (d : Document) (found : List Finding) :
    Option Report := do
  let wanted := wantsCorrection settings request
  let queue ← CorrectionQueue.replaceAll [] (found.filterMap (correctionOf wanted))
  return {
    findings := found.map fun f => ⟨f, (correctionOf wanted f).isSome⟩
    path := request.get? "path"
    corrected := if wanted then some ⟨queue.length, queue.apply d.source⟩ else none }

/-- The answer to a request whose document is loaded and inspected. -/
def conclude (settings : Settings) (request : Json) (d : Document) (found : List Finding) : Outcome :=
  match report? settings request d found with
  | none => .rejected .correctionConflict
  | some r => if Contract.lintReport.accepts r.toJson then .report r else .rejected .invalidReport

/-- The records that conclude a run: one, if it ends in a report. -/
def closingRecords : Outcome → List LogRecord
  | .report r => [.linted r.findings.length]
  | _ => []

end Lint

/-- Lint the document of a request, with these sinks added for the findings. -/
def lint {κ : Type} [DecidableEq κ] (settings : Settings) (sinks : List (Sink κ)) (request : Json) :
    LintRun κ :=
  if !Contract.lintRequest.accepts request then ⟨.rejected .invalidRequest, .empty⟩
  else match Document.load settings request with
    | .error e => ⟨e.outcome, e.record?.elim .empty Outbox.empty.addRecord⟩
    | .ok d =>
      let found := Lint.findings settings d
      let outcome := Lint.conclude settings request d found
      ⟨outcome, (Lint.closingRecords outcome).foldl Outbox.addRecord (Outbox.empty.emitAll sinks found)⟩

end NegationLint
