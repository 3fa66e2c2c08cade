/-
  Whether a run answers.

  A run is meant to answer every request, a bad one with an error.  It does so with one exception,
  which is said here exactly:

  1. `Lints` — all that a run can do, by how far it comes;
  2. `IsAnswer` — what an answer is: a report that keeps its contract, or an error with one of the
     four codes;
  3. `Outcome.IsProper` — a run that does not stop at a fault has such an answer (`exists_answer`),
     and a document that loads is never the reason for a fault (`isProper_conclude`);
  4. `StopsAtDecimal` — THE EXCEPTION: everything is fine up to the first slot with a fault, and all
     that is wrong with the place of that slot is that a whole offset is written with a point;
  5. `answers_unless_decimal` — a run has no answer for these requests and for no others.
-/
import NegationLint.Lint
import NegationLint.Proofs.Loading

namespace NegationLint

open Json (Spells WellFormed ownFault?)

/-! ## What a run can do -/

section Run

variable {κ : Type} [DecidableEq κ]

/-- All that linting a request can do, by how far it comes. -/
inductive Lints (settings : Settings) (sinks : List (Sink κ)) (request : Json) : LintRun κ → Prop
  | refused (refused : Contract.lintRequest.accepts request = false) :
    Lints settings sinks request ⟨.rejected .invalidRequest, .empty⟩
  | unloaded {e : LoadError} (accepted : Contract.lintRequest.accepts request = true)
    (failed : Document.load settings request = .error e) :
    Lints settings sinks request ⟨e.outcome, e.record?.elim .empty Outbox.empty.addRecord⟩
  | linted {d : Document} (accepted : Contract.lintRequest.accepts request = true)
    (loaded : Document.load settings request = .ok d) :
    Lints settings sinks request
      ⟨Lint.conclude settings request d (Lint.findings settings d),
        (Lint.closingRecords (Lint.conclude settings request d (Lint.findings settings d))).foldl
          Outbox.addRecord (Outbox.empty.emitAll sinks (Lint.findings settings d))⟩

/-- Linting does one of these. -/
theorem lints (settings : Settings) (sinks : List (Sink κ)) (request : Json) :
    Lints settings sinks request (lint settings sinks request) := by
  rw [lint]
  by_cases accepted : Contract.lintRequest.accepts request = true
  · rw [accepted]
    cases loaded : Document.load settings request with
    | error e => exact .unloaded accepted loaded
    | ok d => exact .linted accepted loaded
  · rw [Bool.not_eq_true] at accepted
    rw [accepted]
    exact .refused accepted

end Run

/-! ## Answers -/

/-- An answer as published: a report that keeps its contract, or an error that gives one of the codes
    and a sentence. -/
inductive IsAnswer : Json → Prop
  | report (r : Report) (accepted : Contract.lintReport.accepts r.toJson = true) : IsAnswer r.toJson
  | error (code : ReasonCode) (detail : Text) : IsAnswer
    (.obj [("status", .str "error"), ("reason", .str code.name), ("detail", .str detail)])

/-- A run ends as it should: with a report that keeps its contract, or with a rejection. -/
def Outcome.IsProper : Outcome → Prop
  | .report r => Contract.lintReport.accepts r.toJson = true
  | .rejected _ => True
  | .fault => False

/-- What ends as it should has an answer. -/
theorem Outcome.IsProper.exists_answer {o : Outcome} (h : o.IsProper) :
    ∃ answer, o.answer? = some answer ∧ IsAnswer answer := by
  cases o with
  | report r => exact ⟨r.toJson, rfl, .report r h⟩
  | rejected r => exact ⟨r.toJson, rfl, .error r.reason r.detail⟩
  | fault => exact h.elim

/-- A document that loads gives a report that keeps its contract, or a rejection: the last check on a
    report is the contract itself. -/
theorem isProper_conclude (settings : Settings) (request : Json) (d : Document)
    (found : List Finding) : (Lint.conclude settings request d found).IsProper := by
  rw [Lint.conclude]
  cases Lint.report? settings request d found with
  | none => exact True.intro
  | some r =>
    show (if Contract.lintReport.accepts r.toJson = true then _ else _ : Outcome).IsProper
    by_cases accepted : Contract.lintReport.accepts r.toJson = true
    · rw [if_pos accepted]
      exact accepted
    · rw [if_neg accepted]
      exact True.intro

theorem isProper_outcome {e : LoadError} (h : e ≠ .decimalOffset) : e.outcome.IsProper := by
  cases e with
  | decimalOffset => exact absurd rfl h
  | _ => exact True.intro

/-! ## The exception -/

/-- The slot spells a node whose place is fine in a source of so many code points, but for an offset
    that is whole and not written as an integer. -/
def HasDecimalOffset (size : Nat) (slot : Json) : Prop :=
  ∃ fields n, slot = .obj fields ∧ Spells fields n ∧ n.begin ≤ n.stop ∧ n.stop ≤ size
    ∧ n.integral = false

/-- A slot fails for its decimal offset exactly if that is all that is wrong with its place. -/
theorem ownFault?_eq_decimalOffset_iff {size : Nat} {slot : Json} :
    ownFault? size slot = some .decimalOffset ↔ HasDecimalOffset size slot := by
  constructor
  · intro h
    obtain ⟨fields, n, rfl, spelled, fault⟩ := Json.exists_spells_of_ownFault? h nofun nofun
    exact ⟨fields, n, rfl, spelled, Json.nodeFault?_eq_decimalOffset_iff.1 fault⟩
  · rintro ⟨fields, n, rfl, spelled, place⟩
    rw [Json.ownFault?_of_spells size spelled]
    exact Json.nodeFault?_eq_decimalOffset_iff.2 place

/-- The request is accepted and the limits are kept, and the first slot of the tree that is not well
    formed has an offset that is whole and not written as an integer. -/
def StopsAtDecimal (settings : Settings) (request : Json) : Prop :=
  Contract.lintRequest.accepts request = true ∧ ∃ source root bytes before slot after,
    request.get? "source" = some (.str source) ∧ request.get? "ast" = some root
    ∧ source.utf8Size? = some bytes ∧ bytes ≤ settings.maxSourceBytes
    ∧ (root ≠ .null → root.height ≤ settings.maxDepth)
    ∧ Json.documentSlots root = before ++ slot :: after
    ∧ HasDecimalOffset source.length slot ∧ ∀ s ∈ before, WellFormed source.length s

/-- Loading fails at such an offset exactly for the documents past the limits whose first fault it
    is. -/
theorem load_eq_decimalOffset_iff {settings : Settings} {request : Json} :
    Document.load settings request = .error .decimalOffset
      ↔ ∃ source root bytes before slot after, Json.Envelope request source root
        ∧ source.utf8Size? = some bytes ∧ bytes ≤ settings.maxSourceBytes
        ∧ (root ≠ .null → root.height ≤ settings.maxDepth)
        ∧ Json.documentSlots root = before ++ slot :: after
        ∧ HasDecimalOffset source.length slot ∧ ∀ s ∈ before, WellFormed source.length s := by
  constructor
  · intro h
    have done := Document.loads settings request
    rw [h] at done
    generalize hres : (.error .decimalOffset : Except LoadError Document) = result at done
    -- every other stage ends in another error, or in none
    cases done with
    | @tree source root bytes env object size small shallow =>
      have fault := Document.failure?_load env size small fun _ => shallow
      rw [h] at fault
      obtain ⟨before, slot, after, listed, own, fine⟩ := List.findSome?_eq_some_iff.1 fault.symm
      exact ⟨source, root, bytes, before, slot, after, env, size, small, fun _ => shallow, listed,
        ownFault?_eq_decimalOffset_iff.1 own, fine⟩
    | _ => cases hres
  · rintro ⟨source, root, bytes, before, slot, after, env, size, small, shallow, listed, decimal, fine⟩
    rw [← Document.failure?_eq_some_iff, Document.failure?_load env size small shallow]
    exact List.findSome?_eq_some_iff.2
      ⟨before, slot, after, listed, ownFault?_eq_decimalOffset_iff.2 decimal, fine⟩

/-- For a request that is accepted, such a failure to load is the exception. -/
theorem stopsAtDecimal_iff {settings : Settings} {request : Json} :
    StopsAtDecimal settings request ↔ Contract.lintRequest.accepts request = true
      ∧ Document.load settings request = .error .decimalOffset := by
  rw [load_eq_decimalOffset_iff]
  constructor
  · -- a request that keeps its contract is an envelope, of the source and the root that it has
    rintro ⟨accepted, source, root, bytes, before, slot, after, hs, hr, size, small, shallow, fault⟩
    refine ⟨accepted, source, root, bytes, before, slot, after, ?_, size, small, shallow, fault⟩
    have envelope := Json.accepts_astDocument_of_lintRequest accepted
    obtain ⟨source', root', env⟩ := Json.accepts_astDocument_iff.1 envelope
    obtain rfl := Json.str.inj (Option.some.inj (env.source_eq.symm.trans hs))
    obtain rfl := Option.some.inj (env.root_eq.symm.trans hr)
    exact env
  · rintro ⟨accepted, source, root, bytes, before, slot, after, env, size, small, shallow, fault⟩
    exact ⟨accepted, source, root, bytes, before, slot, after, env.source_eq, env.root_eq, size, small,
      shallow, fault⟩

/-! ## Answers but for the exception -/

section Run

variable {κ : Type} [DecidableEq κ]

/-- A run ends as it should, or stops at the exception. -/
theorem isProper_or_fault (settings : Settings) (sinks : List (Sink κ)) (request : Json) :
    (¬ StopsAtDecimal settings request ∧ (lint settings sinks request).outcome.IsProper)
    ∨ (StopsAtDecimal settings request ∧ (lint settings sinks request).outcome = .fault) := by
  have done := lints settings sinks request
  rw [stopsAtDecimal_iff]
  generalize lint settings sinks request = run at done
  cases done with
  | refused refused =>
    refine Or.inl ⟨?_, True.intro⟩
    rintro ⟨accepted, -⟩
    rw [refused] at accepted
    cases accepted
  | @unloaded e accepted failed =>
    by_cases decimal : e = .decimalOffset
    · subst decimal
      exact Or.inr ⟨⟨accepted, failed⟩, rfl⟩
    · refine Or.inl ⟨?_, isProper_outcome decimal⟩
      rintro ⟨-, stops⟩
      rw [failed] at stops
      exact decimal (Except.error.inj stops)
  | @linted d accepted loaded =>
    refine Or.inl ⟨?_, isProper_conclude settings request d _⟩
    rintro ⟨-, stops⟩
    rw [loaded] at stops
    cases stops

/-- **A run answers unless it stops at a decimal.**  It has no answer exactly for the requests that keep
    their contract and the limits and whose first ill-formed slot has nothing wrong with its place but
    a whole offset that is not written as an integer.  Every answer that it has is a report that keeps
    its contract or an error with one of the four codes. -/
theorem answers_unless_decimal (settings : Settings) (sinks : List (Sink κ)) (request : Json) :
    ((lint settings sinks request).outcome.answer? = none ↔ StopsAtDecimal settings request)
    ∧ ∀ answer, (lint settings sinks request).outcome.answer? = some answer → IsAnswer answer := by
  rcases isProper_or_fault settings sinks request with ⟨goes, proper⟩ | ⟨stops, fault⟩
  · obtain ⟨answer, ha, isAnswer⟩ := proper.exists_answer
    rw [ha]
    constructor
    · exact ⟨nofun, fun stops => absurd stops goes⟩
    · intro answer' same
      obtain rfl := Option.some.inj same
      exact isAnswer
  · rw [fault]
    exact ⟨⟨fun _ => stops, fun _ => rfl⟩, nofun⟩

end Run

/-- A request on one number.  Its place is right, but the end of it is written as `1.0`. -/
def decimalRequest : Json := .obj [("source", .str "1"), ("ast", .obj [("type", .str "int"),
  ("children", .arr [.int 1]), ("loc", .obj [("begin", .int 0), ("end", .num (.decimal 10 (-1)))])])]

/-- This request keeps its contract, and has no answer. -/
theorem no_answer_decimalRequest : Contract.lintRequest.accepts decimalRequest = true
    ∧ ¬ ∃ answer,
      (lint .standard ([] : List (Sink Unit)) decimalRequest).outcome.answer? = some answer := by
  refine ⟨by decide, ?_⟩
  have stops : (lint .standard ([] : List (Sink Unit)) decimalRequest).outcome.answer? = none := by rfl
  rintro ⟨answer, h⟩
  cases stops.symm.trans h

end NegationLint
