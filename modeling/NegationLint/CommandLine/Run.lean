/-
  One run of the command line.

  The document file holds a lint request as JSON.  The flag for corrections sets the request's wish,
  and a request without a path gets the name of its file.  The answer is printed on one line; the
  findings' warnings go to the error output if they are asked for.  The exit status is 2 for a
  rejection, 1 for findings, and 0 otherwise.

  * `request` — the request of a file's text;
  * `respond` — the whole run, from the file's text to what is printed;
  * `baseName` — the name of a file without its directories.
-/
import NegationLint.CommandLine.Arguments
import NegationLint.Json.Printer
import NegationLint.Json.Reader
import NegationLint.Lint

namespace NegationLint

namespace CommandLine

/-- Why a run ends without an answer. -/
inductive Failure
  /-- the file is no JSON text -/
  | malformed
  | numeralTooLong
  /-- the file holds no object, so there is no path to look for -/
  | notAnObject
  /-- the file holds no object, so the wish for a correction cannot be set -/
  | notAssignable
  /-- an offset is whole but not written as an integer -/
  | decimalOffset
deriving DecidableEq

/-- The last part of a path; parts that are empty or a single dot do not count. -/
def baseName (path : Text) : Text :=
  ((path.splitOn '/').filter fun part => !part.isEmpty && part ≠ ("." : Text)).getLast?.getD []

/-- A last part that counts is the name of the file. -/
theorem baseName_of_splitOn {path name : Text} (parts : List Text)
    (split : path.splitOn '/' = parts ++ [name]) (filled : name ≠ []) (other : name ≠ ("." : Text)) :
    baseName path = name := by
  have counts : [name].filter (fun part => !part.isEmpty && part ≠ ("." : Text)) = [name] := by
    simp [filled, other]
  rw [baseName, split, List.filter_append, counts, List.getLast?_concat, Option.getD_some]

section Named

variable {name : Text} (whole : CodePoint.ofChar '/' ∉ name) (filled : name ≠ [])
variable (other : name ≠ ("." : Text))

include whole filled other

theorem baseName_of_not_mem : baseName name = name :=
  baseName_of_splitOn [] (Text.splitOn_of_not_mem whole) filled other

/-- The name of a file in a directory. -/
theorem baseName_append (directory : Text) :
    baseName (directory ++ CodePoint.ofChar '/' :: name) = name := by
  refine baseName_of_splitOn (directory.splitOn '/') ?_ filled other
  rw [Text.splitOn_append, Text.splitOn_of_not_mem whole]

end Named

/-- A last part that does not count changes nothing. -/
theorem baseName_append_idle (path : Text) {part : Text} (idle : part = [] ∨ part = ("." : Text)) :
    baseName (path ++ CodePoint.ofChar '/' :: part) = baseName path := by
  have alone : part.splitOn '/' = [part] := by
    rcases idle with rfl | rfl <;> decide
  have ignored : [part].filter (fun part => !part.isEmpty && part ≠ ("." : Text)) = [] := by
    rcases idle with rfl | rfl <;> decide
  rw [baseName, Text.splitOn_append, alone, List.filter_append, ignored, List.append_nil, baseName]

/-- The request that a JSON value is, with the caller's wishes put in. -/
def adopt (arguments : Arguments) (fileName : Text) : Json → Except Failure Json
  | .obj fields =>
    let fields := if arguments.autocorrect then Json.put "autocorrect" (.bool true) fields else fields
    .ok (.obj (if (Json.lookup "path" fields).isSome then fields
      else Json.put "path" (.str fileName) fields))
  | _ => .error (if arguments.autocorrect then .notAssignable else .notAnObject)

/-- The request of a file's text. -/
def request (arguments : Arguments) (fileName text : Text) : Except Failure Json :=
  match Json.parse text with
  | .ok v => adopt arguments fileName v
  | .error .malformed => .error .malformed
  | .error .numeralTooLong => .error .numeralTooLong

/-- The sinks beside the report: the log, under the request's path. -/
def sinks (arguments : Arguments) (request : Json) : List (Sink Empty) :=
  if arguments.logged then
    match request.get? "path" with
    | some (.str path) => [.log path]
    | _ => []
  else []

/-- What a run prints, and its exit status. -/
structure Response where
  status : Nat
  output : Text
  errors : Text
deriving DecidableEq

/-- The exit status of an outcome. -/
def exitStatus : Outcome → Nat
  | .report r => if r.findings.isEmpty then 0 else 1
  | _ => 2

/-- The lines of the warnings among the records. -/
def warningLines (records : List LogRecord) : Text :=
  records.flatMap fun r => if r.level = .warning then r.message ++ ("\n" : Text) else []

/-- The run on a file's text. -/
def respond (settings : Settings) (arguments : Arguments) (fileName text : Text) :
    Except Failure Response := do
  let request ← request arguments fileName text
  let run := lint settings (sinks arguments request) request
  match run.outcome.answer? with
  | none => throw .decimalOffset
  | some answer => return {
      status := exitStatus run.outcome
      output := answer.render ++ ("\n" : Text)
      errors := warningLines run.outbox.log }

end CommandLine

end NegationLint
