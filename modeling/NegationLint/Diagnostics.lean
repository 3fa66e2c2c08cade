/-
  Where findings are delivered, and what is logged.

  A finding is emitted through any number of sinks in order.  A MEMORY keeps what it is given until
  it is cleared; a LOG writes one warning line per finding and forgets nothing.  The same sink may
  be named twice, and then gets the finding twice.

  * `LogRecord` — everything that is ever logged, as data; `LogRecord.message` is its wording;
  * `Sink κ` — a memory named by a `κ`, or a log under the path that it writes in front;
  * `Outbox κ` — what has been delivered so far: the contents of each memory and the log.
-/
import NegationLint.Finding
import NegationLint.Text.UpperCase

namespace NegationLint

/-! ## Log records -/

/-- How much a record matters. -/
inductive LogLevel
  | debug | info | warning
deriving DecidableEq

/-- The word for a level. -/
def LogLevel.name : LogLevel → Text
  | debug => "DEBUG"
  | info => "INFO"
  | warning => "WARNING"

/-- Something that is logged. -/
inductive LogRecord
  | sourceRejected (bytes : Nat) (limit : Int)
  | treeRejected (depth : Nat) (limit : Int)
  | linted (findings : Nat)
  | offense (path : Text) (finding : Finding)

namespace LogRecord

/-- The level of a record. -/
def level : LogRecord → LogLevel
  | sourceRejected .. => .info
  | treeRejected .. => .info
  | linted _ => .debug
  | offense .. => .warning

/-- The letter of a severity: its first code point in upper case. -/
def severityLetter (severity : Text) : Text := (severity.take 1).flatMap CodePoint.toUpper

/-- The wording of a record. -/
def message : LogRecord → Text
  | sourceRejected bytes limit =>
    ("Rejected source buffer of " : Text) ++ Text.ofNat bytes ++ (" bytes (limit " : Text)
      ++ Text.ofInt limit ++ (")" : Text)
  | treeRejected depth limit =>
    ("Rejected AST of depth " : Text) ++ Text.ofNat depth ++ (" (limit " : Text)
      ++ Text.ofInt limit ++ (")" : Text)
  | linted findings =>
    ("Linted document with " : Text) ++ Text.ofNat findings ++ (" finding(s)" : Text)
  | offense path f =>
    path ++ (":" : Text) ++ Text.ofInt f.span.line ++ (":" : Text) ++ Text.ofInt (f.span.column + 1)
      ++ (": " : Text) ++ severityLetter f.severity ++ (": " : Text) ++ ruleName ++ (": " : Text)
      ++ ruleMessage

/-- The record with its level in front. -/
def line (r : LogRecord) : Text := r.level.name ++ ((" " : Text) ++ r.message)

end LogRecord

/-! ## Sinks -/

/-- A place where findings are delivered. -/
inductive Sink (κ : Type) where
  | memory (name : κ)
  | log (path : Text)

/-- The path a log writes when the source has none. -/
def Sink.unnamedPath : Text := "(source)"

/-- What has been delivered. -/
structure Outbox (κ : Type) where
  memory : κ → List Finding
  log : List LogRecord

namespace Outbox

variable {κ : Type} [DecidableEq κ]

/-- Nothing delivered yet. -/
def empty : Outbox κ := ⟨fun _ => [], []⟩

/-- The outbox after one more record. -/
def addRecord (o : Outbox κ) (r : LogRecord) : Outbox κ := { o with log := o.log ++ [r] }

/-- The outbox after a finding has gone to one sink. -/
def deliver (f : Finding) (o : Outbox κ) : Sink κ → Outbox κ
  | .memory name =>
    { o with memory := fun k => if k = name then o.memory k ++ [f] else o.memory k }
  | .log path => o.addRecord (.offense path f)

/-- The outbox after a finding has gone to each of these sinks, in order. -/
def emit (sinks : List (Sink κ)) (o : Outbox κ) (f : Finding) : Outbox κ := sinks.foldl (deliver f) o

/-- The outbox after each of these findings has gone to each of these sinks. -/
def emitAll (sinks : List (Sink κ)) (o : Outbox κ) (fs : List Finding) : Outbox κ :=
  fs.foldl (emit sinks) o

/-- The outbox with these memories emptied. -/
def clear (names : List κ) (o : Outbox κ) : Outbox κ :=
  { o with memory := fun k => if names.contains k then [] else o.memory k }

end Outbox

end NegationLint
