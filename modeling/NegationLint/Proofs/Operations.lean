/-
  Runs of operations on sinks.

  Sinks are shared: one and the same memory may be listed several times in a fan-out, and in several of
  them, and it may be cleared between two findings.  What a sink holds after all that is said here without
  the outbox, from the operations alone:

  1. `Operation`, `perform`, `performAll` — a finding that goes through a fan-out, or memories that are
     cleared; one operation and a run of them;
  2. `Operation.given`, `Operation.written`, `Operation.clears` — what one operation gives to a sink, what it
     writes to the log, and which memories it empties;
  3. `memory_perform`, `log_perform` — THE STEP: a memory is emptied or is given its share behind what it has,
     and the log only grows; a sink that is not named is left alone (`received_perform_of_not_names`);
  4. `memory_performAll`, `log_performAll` — THE RUN: a memory holds what it was given since it was last
     cleared, and the log all that was ever written;
  5. `holds_since_clear` — both, after every prefix of a run, and what is not named is not changed.
-/
import Mathlib.Data.List.DropRight
import NegationLint.Proofs.Deliveries

namespace NegationLint

namespace Outbox

/-- Something that is done with sinks. -/
inductive Operation (κ : Type)
  /-- a finding goes through a fan-out to each of the sinks that are listed, in order -/
  | emit (sinks : List (Sink κ)) (finding : Finding)
  /-- these memories are cleared -/
  | clear (names : List κ)

namespace Operation

variable {κ : Type} [DecidableEq κ]

/-- What the operation gives to a sink: a finding as often as the sink is listed. -/
def given (sink : Sink κ) : Operation κ → List Finding
  | emit sinks f => List.replicate (sinks.count sink) f
  | clear _ => []

omit [DecidableEq κ] in
/-- What the operation writes: a record for each log that is listed, in order. -/
def written : Operation κ → List LogRecord
  | emit sinks f => sinks.filterMap (Sink.record? f)
  | clear _ => []

/-- The operation clears the memory of that name. -/
def clears (name : κ) : Operation κ → Bool
  | emit .. => false
  | clear names => names.contains name

/-- The operation names the sink: as one of those that the finding goes to, or to be cleared. -/
def names : Operation κ → Sink κ → Bool
  | emit sinks _, sink => sinks.contains sink
  | clear names, .memory name => names.contains name
  | clear _, .log _ => false

end Operation

variable {κ : Type} [DecidableEq κ]

/-- The outbox after an operation. -/
def perform (o : Outbox κ) : Operation κ → Outbox κ
  | .emit sinks f => emit sinks o f
  | .clear names => clear names o

/-- The outbox after a run of operations. -/
def performAll (o : Outbox κ) (run : List (Operation κ)) : Outbox κ := run.foldl perform o

/-! ## One operation -/

/-- **The step.**  A memory is emptied by an operation that clears it; any other gives it its share. -/
theorem memory_perform (o : Outbox κ) (op : Operation κ) (name : κ) :
    (o.perform op).memory name
      = if op.clears name then [] else o.memory name ++ op.given (.memory name) := by
  cases op with
  | emit sinks f => exact received_emit sinks o f (.memory name)
  | clear names =>
    show (if names.contains name then [] else o.memory name) = _
    rw [Operation.given, List.append_nil]
    rfl

/-- The log is written to, whatever is cleared. -/
theorem log_perform (o : Outbox κ) (op : Operation κ) : (o.perform op).log = o.log ++ op.written := by
  cases op with
  | emit sinks f => exact log_emit sinks o f
  | clear names => exact (List.append_nil _).symm

/-- A log is given its share by every operation. -/
theorem received_log_perform (o : Outbox κ) (op : Operation κ) (path : Text) :
    (o.perform op).received (.log path) = o.received (.log path) ++ op.given (.log path) := by
  cases op with
  | emit sinks f => exact received_emit sinks o f (.log path)
  | clear names => exact (List.append_nil _).symm

/-- An operation changes no sink that it does not name. -/
theorem received_perform_of_not_names {op : Operation κ} {sink : Sink κ} (h : op.names sink = false)
    (o : Outbox κ) : (o.perform op).received sink = o.received sink := by
  cases op with
  | emit sinks f =>
    have unlisted : sink ∉ sinks := by
      intro listed
      rw [Operation.names, List.contains_iff_mem.2 listed] at h
      cases h
    rw [perform, received_emit, List.count_eq_zero.2 unlisted]
    exact List.append_nil _
  | clear names =>
    cases sink with
    | memory name =>
      show (if names.contains name then [] else o.memory name) = o.memory name
      rw [if_neg (Bool.not_eq_true _ ▸ h)]
    | log path => rfl

/-! ## A run -/

theorem performAll_concat (o : Outbox κ) (run : List (Operation κ)) (op : Operation κ) :
    o.performAll (run ++ [op]) = (o.performAll run).perform op := by
  rw [performAll, performAll, List.foldl_append]
  rfl

/-- **The run.**  A memory holds what it was given by the operations behind the last that cleared it.  By
    induction from the end of the run. -/
theorem memory_performAll (run : List (Operation κ)) (name : κ) :
    (empty.performAll run).memory name
      = (run.rtakeWhile fun op => !op.clears name).flatMap (·.given (.memory name)) := by
  induction run using List.reverseRecOn with
  | nil => rfl
  | append_singleton run op ih =>
    rw [performAll_concat, memory_perform, List.rtakeWhile_concat]
    cases op.clears name with
    | true => rfl
    | false =>
      rw [ih]
      simp

theorem log_performAll (run : List (Operation κ)) :
    (empty.performAll run).log = run.flatMap Operation.written := by
  induction run using List.reverseRecOn with
  | nil => rfl
  | append_singleton run op ih =>
    rw [performAll_concat, log_perform, ih, List.flatMap_append, List.flatMap_singleton]

theorem received_log_performAll (run : List (Operation κ)) (path : Text) :
    (empty.performAll run).received (.log path) = run.flatMap (·.given (.log path)) := by
  induction run using List.reverseRecOn with
  | nil => rfl
  | append_singleton run op ih =>
    rw [performAll_concat, received_log_perform, ih, List.flatMap_append, List.flatMap_singleton]

/-- **Every finding as often as the sink is listed.**  Take any run of operations, and stop it anywhere.  Each
    memory then holds the findings that were emitted since it was last cleared, in order, each of them as
    often as the memory was listed for it.  The log has a record for each log that was ever listed, in
    order; under a path it warns of each finding as often as the log of that path was listed.  And no
    operation, at any time, changes a sink that it does not name, or takes anything out of the log. -/
theorem holds_since_clear (run : List (Operation κ)) (stop : Nat) :
    let done := run.take stop
    let outbox := empty.performAll done
    (∀ name, outbox.memory name
      = (done.rtakeWhile fun op => !op.clears name).flatMap fun
        | .emit sinks f => List.replicate (sinks.count (.memory name)) f
        | .clear _ => [])
    ∧ (outbox.log = done.flatMap fun
        | .emit sinks f => sinks.filterMap fun
          | .memory _ => none
          | .log path => some (.offense path f)
        | .clear _ => [])
    ∧ (∀ path, outbox.received (.log path) = done.flatMap fun
        | .emit sinks f => List.replicate (sinks.count (.log path)) f
        | .clear _ => [])
    ∧ ∀ op, outbox.log <+: (outbox.perform op).log
      ∧ ∀ sink, op.names sink = false → (outbox.perform op).received sink = outbox.received sink := by
  intro done outbox
  refine ⟨memory_performAll done, log_performAll done, received_log_performAll done, ?_⟩
  intro op
  refine ⟨?_, ?_⟩
  · rw [log_perform]
    exact List.prefix_append _ _
  · intro sink unnamed
    exact received_perform_of_not_names unnamed outbox

/-- A memory that is listed twice, cleared, and listed again with a log that is listed twice. -/
example (f g : Finding) :
    let run : List (Operation Nat) := [.emit [.memory 0, .memory 1, .memory 0] f, .clear [0],
      .emit [.memory 0, .log "a", .log "a"] g]
    (empty.performAll run).memory 0 = [g] ∧ (empty.performAll run).memory 1 = [f]
      ∧ (empty.performAll run).log = [.offense "a" g, .offense "a" g] := ⟨rfl, rfl, rfl⟩

end Outbox

end NegationLint
