/-
  What sinks are given.

  An outbox keeps what all sinks have been given together.  What a single one of them has been given is
  said here, and so is the log as a whole:

  1. `received` — the findings that a sink has been given: the contents of a memory, or the findings that a
     log has warned of under its path;
  2. `received_deliver`, `received_emit`, `received_emitAll` — ONE DELIVERY, one finding, all findings: a
     sink is given every finding in order, as often as it is listed (`Sink.share`), and no other sink
     changes that;
  3. `log_deliver`, `log_emit`, `log_emitAll` — the same for the log: one record for each finding and each
     log that is listed, and `log_foldl_addRecord` for records that are added as they are;
  4. `received_of_error`, `received_of_load` — what the sinks of a run are given, however it ends.
-/
import NegationLint.Proofs.Conclusions

namespace NegationLint

deriving instance DecidableEq for Sink

/-- The finding that a record warns of under this path, if it is such a warning. -/
def LogRecord.offenseAt? (path : Text) : LogRecord → Option Finding
  | .offense p f => if p = path then some f else none
  | _ => none

namespace Sink

variable {κ : Type}

/-- What a sink writes about a finding: a log writes a record. -/
def record? (f : Finding) : Sink κ → Option LogRecord
  | .memory _ => none
  | .log path => some (.offense path f)

variable [DecidableEq κ]

/-- What a sink is given of these findings by the sinks that are listed: each of them as often as the sink
    is among those. -/
def share (sinks : List (Sink κ)) (sink : Sink κ) (found : List Finding) : List Finding :=
  found.flatMap (List.replicate (sinks.count sink))

/-- The only sink is given each finding once. -/
theorem share_singleton (sink : Sink κ) (found : List Finding) : share [sink] sink found = found := by
  rw [share, List.count_singleton_self]
  exact List.flatMap_singleton' found

end Sink

namespace Outbox

variable {κ : Type}

/-- The findings that a sink has been given. -/
def received (o : Outbox κ) : Sink κ → List Finding
  | .memory name => o.memory name
  | .log path => o.log.filterMap (LogRecord.offenseAt? path)

@[simp] theorem received_empty (sink : Sink κ) : (empty : Outbox κ).received sink = [] := by
  cases sink <;> rfl

/-! ## Records that are no warnings -/

/-- A record that warns of nothing is not given to any sink. -/
theorem received_addRecord {r : LogRecord} (quiet : ∀ path, r.offenseAt? path = none) (o : Outbox κ)
    (sink : Sink κ) : (o.addRecord r).received sink = o.received sink := by
  cases sink with
  | memory name => rfl
  | log path =>
    show (o.log ++ [r]).filterMap (LogRecord.offenseAt? path) = _
    rw [List.filterMap_append, List.filterMap_cons, quiet path]
    exact List.append_nil _

theorem received_foldl_closingRecords (outcome : Outcome) (o : Outbox κ) (sink : Sink κ) :
    ((Lint.closingRecords outcome).foldl addRecord o).received sink = o.received sink := by
  cases outcome with
  | report r => exact received_addRecord (fun _ => rfl) o sink
  | rejected r => rfl
  | fault => rfl

theorem received_record? (e : LoadError) (sink : Sink κ) :
    (e.record?.elim .empty empty.addRecord : Outbox κ).received sink = [] := by
  cases e with
  | tooLarge bytes limit => exact (received_addRecord (fun _ => rfl) _ sink).trans (received_empty sink)
  | tooDeep depth limit => exact (received_addRecord (fun _ => rfl) _ sink).trans (received_empty sink)
  | _ => exact received_empty sink

/-! ## Deliveries -/

variable [DecidableEq κ]

/-- **One delivery** reaches the sink that it goes to, and no other. -/
theorem received_deliver (f : Finding) (o : Outbox κ) (target sink : Sink κ) :
    (deliver f o target).received sink = o.received sink ++ if target = sink then [f] else [] := by
  cases target with
  | memory name =>
    cases sink with
    | memory k =>
      show (if k = name then o.memory k ++ [f] else o.memory k) = _
      by_cases same : k = name
      · subst same
        rw [if_pos rfl, if_pos rfl]
        rfl
      · rw [if_neg same, if_neg fun h => same (Sink.memory.inj h).symm, List.append_nil]
        rfl
    | log path => exact (List.append_nil _).symm
  | log written =>
    cases sink with
    | memory k => exact (List.append_nil _).symm
    | log path =>
      show (o.log ++ [LogRecord.offense written f]).filterMap (LogRecord.offenseAt? path) = _
      rw [List.filterMap_append]
      by_cases same : written = path
      · subst same
        simp [received, LogRecord.offenseAt?]
      · simp [received, LogRecord.offenseAt?, same]

/-- One finding reaches a sink as often as the sink is listed. -/
theorem received_emit (sinks : List (Sink κ)) (o : Outbox κ) (f : Finding) (sink : Sink κ) :
    (emit sinks o f).received sink = o.received sink ++ List.replicate (sinks.count sink) f := by
  induction sinks generalizing o with
  | nil => exact (List.append_nil _).symm
  | cons target sinks ih =>
    have rest := ih (deliver f o target)
    rw [received_deliver, List.append_assoc] at rest
    show (emit sinks (deliver f o target) f).received sink = _
    rw [rest, List.count_cons]
    by_cases same : target = sink
    · rw [if_pos same, if_pos (beq_iff_eq.2 same), List.replicate_succ]
      rfl
    · rw [if_neg same, if_neg fun h => same (beq_iff_eq.1 h)]
      rfl

/-- **All findings** reach a sink in their order. -/
theorem received_emitAll (sinks : List (Sink κ)) (o : Outbox κ) (fs : List Finding) (sink : Sink κ) :
    (o.emitAll sinks fs).received sink = o.received sink ++ Sink.share sinks sink fs := by
  induction fs generalizing o with
  | nil => exact (List.append_nil _).symm
  | cons f fs ih =>
    show ((emit sinks o f).emitAll sinks fs).received sink = _
    rw [ih, received_emit, List.append_assoc]
    rfl

/-! ## The log -/

omit [DecidableEq κ] in
theorem log_foldl_addRecord (records : List LogRecord) (o : Outbox κ) :
    (records.foldl addRecord o).log = o.log ++ records := by
  induction records generalizing o with
  | nil => exact (List.append_nil _).symm
  | cons r records ih =>
    rw [List.foldl_cons, ih]
    exact List.append_assoc o.log [r] records

theorem log_deliver (f : Finding) (o : Outbox κ) (target : Sink κ) :
    (deliver f o target).log = o.log ++ (target.record? f).toList := by
  cases target with
  | memory name => exact (List.append_nil _).symm
  | log path => rfl

theorem log_emit (sinks : List (Sink κ)) (o : Outbox κ) (f : Finding) :
    (emit sinks o f).log = o.log ++ sinks.filterMap (Sink.record? f) := by
  induction sinks generalizing o with
  | nil => exact (List.append_nil _).symm
  | cons target sinks ih =>
    have rest := ih (deliver f o target)
    rw [log_deliver, List.append_assoc] at rest
    show (emit sinks (deliver f o target) f).log = _
    rw [rest, List.filterMap_cons]
    cases target.record? f <;> rfl

theorem log_emitAll (sinks : List (Sink κ)) (o : Outbox κ) (fs : List Finding) :
    (o.emitAll sinks fs).log = o.log ++ fs.flatMap fun f => sinks.filterMap (Sink.record? f) := by
  induction fs generalizing o with
  | nil => exact (List.append_nil _).symm
  | cons f fs ih =>
    show ((emit sinks o f).emitAll sinks fs).log = _
    rw [ih, log_emit, List.append_assoc]
    rfl

end Outbox

/-! ## Runs -/

section Run

variable {κ : Type} [DecidableEq κ] {settings : Settings} {sinks : List (Sink κ)} {request : Json}

/-- A run whose document does not load gives its sinks nothing. -/
theorem received_of_error {e : LoadError} (accepted : Contract.lintRequest.accepts request = true)
    (failed : Document.load settings request = .error e) (sink : Sink κ) :
    (lint settings sinks request).outbox.received sink = [] := by
  rw [outbox_of_error accepted failed]
  exact Outbox.received_record? e sink

/-- A run whose document loads gives its sinks all that it finds, however it ends. -/
theorem received_of_load {d : Document} (accepted : Contract.lintRequest.accepts request = true)
    (loaded : Document.load settings request = .ok d) (sink : Sink κ) :
    (lint settings sinks request).outbox.received sink
      = Sink.share sinks sink (Lint.findings settings d) := by
  rw [outbox_of_load accepted loaded, Outbox.received_foldl_closingRecords, Outbox.received_emitAll,
    Outbox.received_empty, List.nil_append]

end Run

end NegationLint
