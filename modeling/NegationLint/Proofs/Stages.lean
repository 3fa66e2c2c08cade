/-
  In which order requests are refused.

  A request may be wrong in several ways at once, and the first stage that finds a fault gives the
  answer.  Each stage is said here by what the request holds, not by what the stages before it leave:

  1. `HasIntegralOffsets` — no place in the tree is written with a point or an exponent.  Under this
     condition every run answers (`not_stopsAtDecimal`);
  2. `Oversized`, `Unbuildable`, `Unloadable` — the source has too many bytes; the tree is too deep, or one
     of its slots is not well formed; the source has no encoding, or it has a tree that cannot be built;
  3. `outcome_of_unencodable`, `outcome_of_large`, `outcome_of_unbuildable`, `outcome_of_buildable` — the
     end of a run, stage by stage; `outcome_by_stages` puts them together, and
     `outcome_eq_sourceTooLarge_iff`, `outcome_eq_unloadable_iff` come from it;
  4. `answer?_eq_iff` — no two rejections have the same answer, and no report has that of a rejection;
  5. `answer_by_stages` — which answer a run gives, as one condition for each of them.  A TREE IS NOT ALL
     THAT CAN KEEP A DOCUMENT FROM LOADING: half of a surrogate pair has no encoding, so a source that
     holds one is refused without a byte to count and without a tree to build (`unloadable_halfPair`).
-/
import NegationLint.Proofs.Conclusions
import NegationLint.Proofs.Reading

namespace NegationLint

namespace Json

/-! ## Offsets written as integers -/

/-- The raw node has no offset that is written with a point or an exponent. -/
def HasIntegralOffsets (v : Json) : Prop :=
  ∀ loc, v.get? "loc" = some loc → ∀ key ∈ (["begin", "end"] : List Text), ∀ mantissa exponent,
    loc.get? key ≠ some (.num (.decimal mantissa exponent))

/-- No raw node in the tree of the request has such an offset. -/
def HasIntegralTree (request : Json) : Prop :=
  ∀ root, request.get? "ast" = some root → ∀ v ∈ root.objects, v.HasIntegralOffsets

/-- Every slot that is an object is one of the objects of the tree.  By induction on the raw tree. -/
theorem mem_objects_of_mem_slots {v slot : Json} (h : slot ∈ v.slots)
    (object : slot.isObject = true) : slot ∈ v.objects := by
  induction v using childInduction with
  | step v ih =>
    rw [slots_eq, List.mem_cons, List.mem_flatMap] at h
    rcases h with rfl | ⟨c, hc, h⟩
    · rw [objects_of_isObject object]
      exact List.mem_cons_self
    · have item := mem_childItems_of_mem_slotsBelow hc
      have below := ih c item h
      obtain ⟨fields, rfl, -⟩ := exists_lookup_of_mem_childItems item
      -- only an object has objects, so the child is a raw node
      have child : c ∈ (Json.obj fields).rawChildren := by
        refine List.mem_filter.2 ⟨item, ?_⟩
        by_contra other
        rw [objects_of_not_isObject (Bool.not_eq_true _ ▸ other)] at below
        cases below
      rw [objects_of_isObject rfl]
      exact List.mem_cons_of_mem _ (List.mem_flatMap.2 ⟨c, child, below⟩)

theorem HasIntegralOffsets.integral {fields : List (Text × Json)} {n : RawNode}
    (h : (Json.obj fields).HasIntegralOffsets) (spelled : Spells fields n) : n.integral = true := by
  obtain ⟨loc, first, last, hl, hb, he, hfirst, hlast, hint, -⟩ := spelled.offsets
  have written {key : Text} {w : Number} {k : Int} (hk : key ∈ (["begin", "end"] : List Text))
      (hw : lookup key loc = some (.num w)) (whole : w.integer? = some k) : w.isInteger = true := by
    cases w with
    | int => rfl
    | decimal mantissa exponent => exact absurd hw (h (.obj loc) hl key hk mantissa exponent)
    | notANumber => cases whole
    | infinite => cases whole
  rw [hint, written (by simp) hb hfirst, written (by simp) he hlast]
  rfl

/-- Where there is no tree there is no offset. -/
theorem HasIntegralTree.of_null {request : Json} (h : request.get? "ast" = some .null) :
    request.HasIntegralTree := by
  intro root hr v hv
  obtain rfl := Option.some.inj (h.symm.trans hr)
  rw [objects_of_not_isObject rfl] at hv
  cases hv

/-- The tree is nested too deep, or one of its slots is not well formed. -/
def Unbuildable (limit : Int) (size : Nat) (root : Json) : Prop :=
  limit < root.height ∨ ∃ slot ∈ root.slots, ¬ WellFormed size slot

end Json

open Json (HasIntegralTree Unbuildable Envelope)

/-- The source has more bytes than the limit.  Without an encoding there are none to count. -/
def Oversized (settings : Settings) (source : Text) : Prop :=
  ∃ bytes, source.utf8Size? = some bytes ∧ settings.maxSourceBytes < bytes

/-- The source holds half of a surrogate pair, or there is a tree and it cannot be built. -/
def Unloadable (settings : Settings) (source : Text) (root : Json) : Prop :=
  (∃ c ∈ source, c.isSurrogate = true)
  ∨ root ≠ .null ∧ Unbuildable settings.maxDepth source.length root

section Sizes

variable {settings : Settings} {source : Text} {root : Json} {bytes : Nat}

theorem oversized_iff (size : source.utf8Size? = some bytes) :
    Oversized settings source ↔ settings.maxSourceBytes < bytes := by
  simp [Oversized, size]

theorem not_oversized_of_unencodable (size : source.utf8Size? = none) : ¬ Oversized settings source := by
  rintro ⟨bytes, counted, -⟩
  rw [size] at counted
  cases counted

/-- What can be encoded has only its tree to fail for. -/
theorem unloadable_iff (size : source.utf8Size? = some bytes) : Unloadable settings source root
    ↔ root ≠ .null ∧ Unbuildable settings.maxDepth source.length root := by
  refine or_iff_right fun half => ?_
  rw [Text.utf8Size?_eq_none_iff.2 half] at size
  cases size

end Sizes

/-- With offsets written as integers there is no slot at which a run stops. -/
theorem not_stopsAtDecimal {settings : Settings} {request : Json} (h : HasIntegralTree request) :
    ¬ StopsAtDecimal settings request := by
  rintro ⟨-, source, root, bytes, before, slot, after, -, hr, -, -, -, listed, decimal, -⟩
  obtain ⟨fields, n, rfl, spelled, -, -, decimal⟩ := decimal
  have slot : Json.obj fields ∈ Json.documentSlots root := by
    rw [listed]
    simp
  have below : Json.obj fields ∈ root.slots := by
    rw [Json.documentSlots] at slot
    split at slot
    · cases slot
    · exact slot
  have integral := (h root hr _ (Json.mem_objects_of_mem_slots below rfl)).integral spelled
  rw [decimal] at integral
  cases integral

/-! ## The stages of loading -/

namespace Document

/-- A fault of a slot is not recorded: no check on a slot knows of bytes or of depths. -/
theorem record?_of_ownFault? {size : Nat} {slot : Json} {e : LoadError}
    (h : Json.ownFault? size slot = some e) : e.record? = none := by
  rw [Json.ownFault?] at h
  split at h
  · cases h
    rfl
  · split at h
    · cases h
      rfl
    · rw [Json.nodeFault?] at h
      split at h
      · cases h
        rfl
      · split at h
        · cases h
          rfl
        · unfold Json.formFault? at h
          split at h <;> (try split at h) <;> cases h <;> rfl

/-- A fault of a slot is a fault of the tree, unless it is a decimal offset. -/
theorem outcome_of_ownFault? {size : Nat} {slot : Json} {e : LoadError}
    (h : Json.ownFault? size slot = some e) (integral : e ≠ .decimalOffset) :
    e.outcome = .rejected .unloadable := by
  have unrecorded := record?_of_ownFault? h
  cases e with
  | decimalOffset => exact absurd rfl integral
  | tooLarge bytes limit => cases unrecorded
  | _ => rfl

end Document

section Run

variable {κ : Type} [DecidableEq κ] {settings : Settings} {sinks : List (Sink κ)}
variable {request root : Json} {source : Text} {bytes : Nat}

/-! ## The end of a run, stage by stage -/

/-- Nothing but the contract on requests makes a request invalid. -/
theorem outcome_eq_invalidRequest_iff :
    (lint settings sinks request).outcome = .rejected .invalidRequest
      ↔ Contract.lintRequest.accepts request = false := by
  refine ⟨fun ends => ?_, outcome_of_refused⟩
  have done := lints settings sinks request
  generalize lint settings sinks request = run at ends done
  cases done with
  | refused refused => exact refused
  | @unloaded e => cases e <;> cases ends
  | @linted d =>
    have done := Lint.concludes settings request d (Lint.findings settings d)
    rw [show Lint.conclude settings request d (Lint.findings settings d) = _ from ends] at done
    cases done

variable (accepted : Contract.lintRequest.accepts request = true) (env : Envelope request source root)

include accepted env

theorem outcome_of_unencodable (size : source.utf8Size? = none) :
    (lint settings sinks request).outcome = .rejected .unloadable :=
  outcome_of_error accepted (Document.load_of_unencodable env size)

theorem outcome_of_large (size : source.utf8Size? = some bytes)
    (large : settings.maxSourceBytes < bytes) :
    (lint settings sinks request).outcome = .rejected .sourceTooLarge :=
  outcome_of_error accepted (Document.load_of_large env size large)

/-- A tree that cannot be built is refused: for its depth, or else for its first fault. -/
theorem outcome_of_unbuildable (integral : HasIntegralTree request)
    (size : source.utf8Size? = some bytes) (small : bytes ≤ settings.maxSourceBytes)
    (object : root.isObject = true) (unbuildable : Unbuildable settings.maxDepth source.length root) :
    (lint settings sinks request).outcome = .rejected .unloadable := by
  by_cases deep : settings.maxDepth < root.height
  · have failed := (Document.load_of_small env size small).trans (Document.loadTree_of_deep object deep)
    exact outcome_of_error accepted failed
  · obtain ⟨slot, listed, faulty⟩ := unbuildable.resolve_left deep
    have fault := Document.failure?_load env size small fun _ => Int.not_lt.1 deep
    rw [Document.documentSlots_of_isObject object] at fault
    cases first : root.slots.findSome? (Json.ownFault? source.length) with
    | none => exact absurd (List.findSome?_eq_none_iff.1 first slot listed) faulty
    | some e =>
      rw [first, Document.failure?_eq_some_iff] at fault
      obtain ⟨own, -, he⟩ := List.exists_of_findSome?_eq_some first
      have whole : e ≠ .decimalOffset := by
        rintro rfl
        exact not_stopsAtDecimal integral (stopsAtDecimal_iff.2 ⟨accepted, fault⟩)
      rw [outcome_of_error accepted fault]
      exact Document.outcome_of_ownFault? he whole

omit accepted in
/-- Without an obstacle the document loads. -/
theorem exists_load_of_buildable (size : source.utf8Size? = some bytes)
    (small : bytes ≤ settings.maxSourceBytes)
    (buildable : ¬ (root ≠ .null ∧ Unbuildable settings.maxDepth source.length root)) :
    ∃ d, Document.load settings request = .ok d := by
  have clear (solid : root ≠ .null) : ¬ Unbuildable settings.maxDepth source.length root :=
    fun unbuildable => buildable ⟨solid, unbuildable⟩
  have shallow : root ≠ .null → (root.height : Int) ≤ settings.maxDepth := by
    intro solid
    exact Int.not_lt.1 fun deep => clear solid (Or.inl deep)
  have fault := Document.failure?_load env size small shallow
  rw [← Document.failure?_eq_none_iff, fault, List.findSome?_eq_none_iff]
  intro slot listed
  rcases env.kind with object | rfl
  · rw [Document.documentSlots_of_isObject object] at listed
    have solid : root ≠ .null := by
      rintro rfl
      cases object
    by_contra faulty
    exact clear solid (Or.inr ⟨slot, listed, faulty⟩)
  · cases listed

/-- A document without an obstacle ends in a conflict, in an invalid report or in a report. -/
theorem outcome_of_buildable (sinks : List (Sink κ)) (size : source.utf8Size? = some bytes)
    (small : bytes ≤ settings.maxSourceBytes)
    (buildable : ¬ (root ≠ .null ∧ Unbuildable settings.maxDepth source.length root)) :
    (lint settings sinks request).outcome = .rejected .correctionConflict
    ∨ (lint settings sinks request).outcome = .rejected .invalidReport
    ∨ ∃ r, Contract.lintReport.accepts r.toJson = true
      ∧ (lint settings sinks request).outcome = .report r := by
  obtain ⟨d, loaded⟩ := exists_load_of_buildable env size small buildable
  rw [outcome_of_load accepted loaded]
  have done := Lint.concludes settings request d (Lint.findings settings d)
  generalize Lint.conclude settings request d (Lint.findings settings d) = outcome at done
  cases done with
  | clash => exact Or.inl rfl
  | invalid => exact Or.inr (Or.inl rfl)
  | report _ kept => exact Or.inr (Or.inr ⟨_, kept, rfl⟩)

/-- The stages behind the first. -/
theorem outcome_by_stages (settings : Settings) (sinks : List (Sink κ))
    (integral : HasIntegralTree request) :
    (Oversized settings source
      ∧ (lint settings sinks request).outcome = .rejected .sourceTooLarge)
    ∨ (¬ Oversized settings source ∧ Unloadable settings source root
      ∧ (lint settings sinks request).outcome = .rejected .unloadable)
    ∨ (¬ Oversized settings source ∧ ¬ Unloadable settings source root
      ∧ ((lint settings sinks request).outcome = .rejected .correctionConflict
        ∨ (lint settings sinks request).outcome = .rejected .invalidReport
        ∨ ∃ r, Contract.lintReport.accepts r.toJson = true
          ∧ (lint settings sinks request).outcome = .report r)) := by
  cases size : source.utf8Size? with
  | none =>
    exact Or.inr (Or.inl ⟨not_oversized_of_unencodable size,
      Or.inl (Text.utf8Size?_eq_none_iff.1 size), outcome_of_unencodable accepted env size⟩)
  | some bytes =>
    rw [oversized_iff size, unloadable_iff size, Int.not_lt]
    rcases Int.lt_or_le settings.maxSourceBytes bytes with large | small
    · exact Or.inl ⟨large, outcome_of_large accepted env size large⟩
    · by_cases obstacle : root ≠ .null ∧ Unbuildable settings.maxDepth source.length root
      · have object : root.isObject = true := env.kind.resolve_right obstacle.1
        exact Or.inr (Or.inl ⟨small, obstacle,
          outcome_of_unbuildable accepted env integral size small object obstacle.2⟩)
      · exact Or.inr (Or.inr ⟨small, obstacle,
          outcome_of_buildable accepted env sinks size small obstacle⟩)

/-- Nothing but its bytes makes a source too large. -/
theorem outcome_eq_sourceTooLarge_iff (settings : Settings) (sinks : List (Sink κ))
    (integral : HasIntegralTree request) :
    (lint settings sinks request).outcome = .rejected .sourceTooLarge ↔ Oversized settings source := by
  rcases outcome_by_stages accepted env settings sinks integral with
    ⟨large, ends⟩ | ⟨small, -, ends⟩ | ⟨small, -, ends | ends | ⟨r, -, ends⟩⟩
  · exact iff_of_true ends large
  all_goals
    refine iff_of_false (fun same => ?_) small
    rw [ends] at same
    cases same

/-- A document whose source is not too large is unloadable for its source or for its tree. -/
theorem outcome_eq_unloadable_iff (settings : Settings) (sinks : List (Sink κ))
    (integral : HasIntegralTree request) (small : ¬ Oversized settings source) :
    (lint settings sinks request).outcome = .rejected .unloadable
      ↔ Unloadable settings source root := by
  rcases outcome_by_stages accepted env settings sinks integral with
    ⟨large, -⟩ | ⟨-, obstacle, ends⟩ | ⟨-, clear, ends | ends | ⟨r, -, ends⟩⟩
  · exact absurd large small
  · exact iff_of_true ends obstacle
  all_goals
    refine iff_of_false (fun same => ?_) clear
    rw [ends] at same
    cases same

end Run

/-! ## Answers -/

/-- The answer that gives a reason and says what is wrong. -/
def errorAnswer (reason detail : Text) : Json :=
  .obj [("status", .str "error"), ("reason", .str reason), ("detail", .str detail)]

/-- The answers that are no report. -/
def errorAnswers : List Json := [
  errorAnswer "invalid_input" "Request failed validation.",
  errorAnswer "payload_too_large" "Source exceeds the allowed size.",
  errorAnswer "invalid_input" "Unable to load the AST document.",
  errorAnswer "correction_conflict" "Autocorrections overlap and cannot be applied together.",
  errorAnswer "response_validation_failed" "Lint report did not meet the report contract."]

theorem toJson_mem_errorAnswers (r : Rejection) : r.toJson ∈ errorAnswers := by
  cases r <;> simp [errorAnswers, errorAnswer, Rejection.toJson, Rejection.reason, Rejection.detail,
    ReasonCode.name]

theorem Rejection.toJson_inj {r s : Rejection} (h : r.toJson = s.toJson) : r = s := by
  have details : r.detail = s.detail := by
    have details := congrArg (Json.get? "detail") h
    exact Json.str.inj (Option.some.inj details)
  revert details
  cases r <;> cases s <;> decide

theorem Report.toJson_ne_rejection (r : Report) (s : Rejection) : r.toJson ≠ s.toJson := by
  intro h
  have detail := congrArg (Json.get? "operation") h
  cases detail

/-- A run gives the answer of a rejection exactly if it ends in that rejection. -/
theorem answer?_eq_iff {o : Outcome} {r : Rejection} :
    o.answer? = some r.toJson ↔ o = .rejected r := by
  cases o with
  | report report =>
    constructor
    · intro h
      exact absurd (Option.some.inj h) (report.toJson_ne_rejection r)
    · intro h
      cases h
  | rejected s =>
    constructor
    · intro h
      rw [Rejection.toJson_inj (Option.some.inj h)]
    · intro h
      cases h
      rfl
  | fault => exact ⟨nofun, nofun⟩

theorem eq_toJson_iff {o : Outcome} {answer : Json} (h : o.answer? = some answer) {r : Rejection} :
    answer = r.toJson ↔ o = .rejected r := by
  rw [← answer?_eq_iff, h, Option.some.injEq]

section Run

variable {κ : Type} [DecidableEq κ]

/-- **The stages of a run.**  Every request whose offsets are written as integers is answered.  It is
    refused as a request exactly if it breaks its contract.  A request that keeps it is the envelope of a
    document; the source is too large exactly if it has more bytes than the limit, whatever the tree
    looks like, and the document is unloadable, if its source is not too large, exactly if the source cannot
    be encoded or there is a tree that is too deep or has an ill-formed slot.  What is left ends in a
    conflict, in an invalid report or in a report.  All answers but reports are five in number and do not
    depend on the request. -/
theorem answer_by_stages (settings : Settings) (sinks : List (Sink κ)) {request : Json}
    (integral : HasIntegralTree request) :
    ∃ answer, (lint settings sinks request).outcome.answer? = some answer
    ∧ (answer = errorAnswer "invalid_input" "Request failed validation."
      ↔ Contract.lintRequest.accepts request = false)
    ∧ (Contract.lintRequest.accepts request = true → ∃ source root,
      Contract.astDocument.accepts request = true
      ∧ request.get? "source" = some (.str source) ∧ request.get? "ast" = some root
      ∧ (answer = errorAnswer "payload_too_large" "Source exceeds the allowed size."
        ↔ Oversized settings source)
      ∧ (¬ Oversized settings source →
        (answer = errorAnswer "invalid_input" "Unable to load the AST document."
          ↔ Unloadable settings source root)
        ∧ (¬ Unloadable settings source root →
          answer = errorAnswer "correction_conflict"
            "Autocorrections overlap and cannot be applied together."
          ∨ answer = errorAnswer "response_validation_failed"
            "Lint report did not meet the report contract."
          ∨ ∃ r : Report, Contract.lintReport.accepts r.toJson = true ∧ answer = r.toJson)))
    ∧ (answer ∈ errorAnswers ∨ ∃ r : Report, answer = r.toJson) := by
  have proper := (isProper_or_fault settings sinks request).resolve_right fun stops =>
    not_stopsAtDecimal integral stops.1
  obtain ⟨answer, given, -⟩ := proper.2.exists_answer
  have same (r : Rejection) := eq_toJson_iff (r := r) given
  refine ⟨answer, given, ?_, ?_, ?_⟩
  · exact (same .invalidRequest).trans outcome_eq_invalidRequest_iff
  · intro accepted
    have envelope := Json.accepts_astDocument_of_lintRequest accepted
    obtain ⟨source, root, env⟩ := Json.accepts_astDocument_iff.1 envelope
    have large := outcome_eq_sourceTooLarge_iff accepted env settings sinks integral
    refine ⟨source, root, envelope, env.source_eq, env.root_eq, (same .sourceTooLarge).trans large, ?_⟩
    intro small
    have obstacle := outcome_eq_unloadable_iff accepted env settings sinks integral small
    refine ⟨(same .unloadable).trans obstacle, ?_⟩
    intro clear
    rcases outcome_by_stages accepted env settings sinks integral with
      ⟨large, -⟩ | ⟨-, obstacle, -⟩ | ⟨-, -, ends | ends | ⟨report, kept, ends⟩⟩
    · exact absurd large small
    · exact absurd obstacle clear
    · exact Or.inl ((same .correctionConflict).2 ends)
    · exact Or.inr (Or.inl ((same .invalidReport).2 ends))
    · rw [ends] at given
      exact Or.inr (Or.inr ⟨report, kept, (Option.some.inj given).symm⟩)
  · generalize (lint settings sinks request).outcome = outcome at given
    cases outcome with
    | report r => exact Or.inr ⟨r, (Option.some.inj given).symm⟩
    | rejected r => exact Or.inl (Option.some.inj given ▸ toJson_mem_errorAnswers r)
    | fault => cases given

end Run

/-- A request whose tree is an entry without key and value, past the end of the source. -/
def brokenEntry : Json := .obj [("source", .str "a: 1"), ("ast", Example.node "pair" 5 99 [])]

theorem hasIntegralTree_brokenEntry : HasIntegralTree brokenEntry := by
  intro root hr v hv
  obtain rfl := Option.some.inj (show some (Example.node "pair" 5 99 []) = some root from hr)
  have alone : (Example.node "pair" 5 99 []).objects = [Example.node "pair" 5 99 []] := by
    rw [Json.objects_of_isObject rfl]
    rfl
  rw [alone, List.mem_singleton] at hv
  subst hv
  intro loc hl key hk mantissa exponent
  obtain rfl := Option.some.inj (show some (Json.obj [("begin", .int 5), ("end", .int 99)]) = some loc
    from hl)
  rcases List.mem_cons.1 hk with rfl | hk
  · exact nofun
  · obtain rfl := List.mem_singleton.1 hk
    exact nofun

/-- With room for two bytes only, the source is what is wrong with it. -/
theorem answer_by_stages_brokenEntry : HasIntegralTree brokenEntry
    ∧ (lint { maxSourceBytes := 2 } ([] : List (Sink Unit)) brokenEntry).outcome.answer?
      = some (errorAnswer "payload_too_large" "Source exceeds the allowed size.") := by
  refine ⟨hasIntegralTree_brokenEntry, ?_⟩
  obtain ⟨answer, given, -, stages, -⟩ := answer_by_stages { maxSourceBytes := 2 }
    ([] : List (Sink Unit)) hasIntegralTree_brokenEntry
  obtain ⟨source, root, -, hs, -, counted, -⟩ := stages (by decide)
  obtain rfl := Json.str.inj (Option.some.inj (show some (Json.str "a: 1") = some (.str source) from hs))
  have large : answer = _ := counted.2 ⟨4, by decide, by decide⟩
  rw [given, large]

/-- Half of a surrogate pair for a source, and no tree. -/
def halfPair : Json := .obj [("source", .str [⟨0xD800, by decide⟩]), ("ast", .null)]

/-- The request is in order, no byte of its source is too much and there is no tree to build, but the
    document is unloadable.  So it is not the tree alone that makes a document unloadable. -/
theorem unloadable_halfPair :
    (HasIntegralTree halfPair ∧ Contract.lintRequest.accepts halfPair = true
      ∧ halfPair.get? "ast" = some .null
      ∧ (lint .standard ([] : List (Sink Unit)) halfPair).outcome.answer?
        = some (errorAnswer "invalid_input" "Unable to load the AST document."))
    ∧ ¬ ∀ (settings : Settings) (request : Json), HasIntegralTree request →
      Contract.lintRequest.accepts request = true → ∀ source root,
      request.get? "source" = some (.str source) → request.get? "ast" = some root →
      ¬ Oversized settings source →
      ((lint settings ([] : List (Sink Unit)) request).outcome.answer?
          = some (errorAnswer "invalid_input" "Unable to load the AST document.")
        ↔ root ≠ .null ∧ Unbuildable settings.maxDepth source.length root) := by
  have integral : HasIntegralTree halfPair := .of_null rfl
  have accepted : Contract.lintRequest.accepts halfPair = true := by decide
  have unsized : Text.utf8Size? [⟨0xD800, by decide⟩] = none := by decide
  have answered : (lint .standard ([] : List (Sink Unit)) halfPair).outcome.answer?
      = some (errorAnswer "invalid_input" "Unable to load the AST document.") := rfl
  refine ⟨⟨integral, accepted, rfl, answered⟩, fun claimed => ?_⟩
  have tree := (claimed .standard halfPair integral accepted _ .null rfl rfl
    (not_oversized_of_unencodable unsized)).1 answered
  exact tree.1 rfl

end NegationLint
