/-
  What a lint run answers.

  A run ends in one of three ways:

  * a `Report` — the findings, and the corrected source if one was asked for and allowed;
  * a `Rejection` — one of five fixed answers, each a reason code and a sentence, that carry nothing
    of the source or the tree;
  * a fault — an offset that is whole but not written as an integer (`1.0`), at which the run stops
    without an answer.
-/
import NegationLint.EnumRule

namespace NegationLint

/-! ## Rejections -/

/-- The codes that callers can act on. -/
inductive ReasonCode
  | payloadTooLarge
  | invalidInput
  | correctionConflict
  | responseValidationFailed
deriving DecidableEq

namespace ReasonCode

/-- The word for a code. -/
def name : ReasonCode → Text
  | payloadTooLarge => "payload_too_large"
  | invalidInput => "invalid_input"
  | correctionConflict => "correction_conflict"
  | responseValidationFailed => "response_validation_failed"

/-- All codes. -/
def all : List ReasonCode :=
  [payloadTooLarge, invalidInput, correctionConflict, responseValidationFailed]

end ReasonCode

/-- Why a run ends without a report. -/
inductive Rejection
  /-- the request breaks its contract -/
  | invalidRequest
  | sourceTooLarge
  /-- the document cannot be loaded for any other reason -/
  | unloadable
  /-- two corrections overlap -/
  | correctionConflict
  /-- the report would break its contract -/
  | invalidReport
deriving DecidableEq

namespace Rejection

/-- The reason code of a rejection. -/
def reason : Rejection → ReasonCode
  | invalidRequest => .invalidInput
  | sourceTooLarge => .payloadTooLarge
  | unloadable => .invalidInput
  | correctionConflict => .correctionConflict
  | invalidReport => .responseValidationFailed

/-- The sentence of a rejection. -/
def detail : Rejection → Text
  | invalidRequest => "Request failed validation."
  | sourceTooLarge => "Source exceeds the allowed size."
  | unloadable => "Unable to load the AST document."
  | correctionConflict => "Autocorrections overlap and cannot be applied together."
  | invalidReport => "Lint report did not meet the report contract."

/-- The answer that a rejection is. -/
def toJson (r : Rejection) : Json :=
  .obj [("status", .str "error"), ("reason", .str r.reason.name), ("detail", .str r.detail)]

end Rejection

/-! ## Reports -/

/-- A finding as it is reported. -/
structure ReportedFinding where
  finding : Finding
  correctable : Bool

/-- The fields of a reported finding. -/
def ReportedFinding.toJson (r : ReportedFinding) : Json :=
  .obj (r.finding.fields ++ [Json.field "correctable" (.bool r.correctable)])

/-- A source after its corrections, with their number. -/
structure CorrectedSource where
  count : Nat
  text : Text

/-- The answer to a request that was linted. -/
structure Report where
  findings : List ReportedFinding
  /-- the path given with the request, whatever it was -/
  path : Option Json
  corrected : Option CorrectedSource

namespace Report

/-- Whether there is anything to report, in one word. -/
def status (r : Report) : Text := if r.findings.isEmpty then "clean" else "offenses"

/-- The fields of a corrected source. -/
def correctedFields (c : CorrectedSource) : List (Text × Json) :=
  [("corrections_count", .int c.count), ("corrected_source", .str c.text)]

/-- The answer that a report is. -/
def toJson (r : Report) : Json :=
  .obj (Json.field "operation" (.str "enum_lint")
    :: Json.field "status" (.str r.status)
    :: Json.field "findings_count" (.int r.findings.length)
    :: Json.field "findings" (.arr (r.findings.map ReportedFinding.toJson))
    :: ((r.path.toList.map fun p => Json.field "path" p)
      ++ (r.corrected.map correctedFields).getD []))

end Report

/-! ## Outcomes -/

/-- How a run ends. -/
inductive Outcome
  | report (report : Report)
  | rejected (rejection : Rejection)
  | fault

namespace Outcome

/-- The answer to the caller, if there is one. -/
def answer? : Outcome → Option Json
  | report r => some r.toJson
  | rejected r => some r.toJson
  | fault => none

end Outcome

end NegationLint
