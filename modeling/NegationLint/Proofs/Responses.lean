/-
  What the command line prints.

  The command line reads a request from a file, changes two of its fields on the caller's behalf, and prints
  the answer of the run on a line of its own.  Nothing of the answer is lost on the way:

  1. `Arguments.parse_options` — every choice of options can be asked for;
  2. `lookup_adopted` — the request is the file's object but for the flag and the path, and `texts_adopted` —
     it brings no other text with it;
  3. `outcome_of_sinks` — how a run ends does not depend on where its findings go;
  4. `exitStatus_iff` — the exit status as a condition on the answer;
  5. `readable_of_report` — THE CRUX: a report has no decimals, no key twice, and no number beyond the length
     of the source and the number of its findings, so it is read back;
  6. `respond_answers` — the whole call, with the last part of the file's path for its name.
-/
import NegationLint.CommandLine.Run
import NegationLint.Proofs.Provenance
import NegationLint.Proofs.SelfCheck

namespace NegationLint

open Json (HasIntegralTree Readable DrawnFrom)

namespace CommandLine

/-! ## The words of a call -/

/-- The options that ask for this: memory is what findings go to if nothing is said. -/
def Arguments.options (a : Arguments) : List (List Text) :=
  let flag : List Text := if a.autocorrect then ["--autocorrect"] else []
  if a.logged then [flag ++ (["--sink", "log"] : List Text)]
  else [flag, flag ++ (["--sink", "memory"] : List Text)]

/-- Every choice can be asked for, behind the name of the document. -/
theorem Arguments.parse_options {a : Arguments} (plain : classify a.document = .ok (.plain a.document)) :
    ∀ options ∈ a.options, Arguments.parse (a.document :: options) = .ok a := by
  obtain ⟨document, autocorrect, logged⟩ := a
  have other : document ≠ ("--" : Text) := by
    rintro rfl
    cases plain
  have classified (rest : List Text) :
      classifyAll (document :: rest) = (Word.plain document :: ·) <$> classifyAll rest := by
    rw [classifyAll, if_neg other, show classify document = _ from plain]
    rfl
  intro options listed
  show Arguments.parse (document :: options) = _
  rw [Arguments.parse, classified]
  cases logged with
  | true =>
    obtain rfl := List.mem_singleton.1 listed
    cases autocorrect <;> rfl
  | false =>
    rcases List.mem_cons.1 listed with rfl | listed
    · cases autocorrect <;> rfl
    · obtain rfl := List.mem_singleton.1 listed
      cases autocorrect <;> rfl

/-! ## The request -/

section Request

variable {arguments : Arguments} {fileName : Text} {fields : List (Text × Json)}

/-- The fields with the wish for a correction set, if the caller sets it. -/
def flagged (autocorrect : Bool) (fields : List (Text × Json)) : List (Text × Json) :=
  if autocorrect then Json.put "autocorrect" (.bool true) fields else fields

/-- The fields of the request: the flag is set if the caller sets it, and a path is put in if there is none. -/
def adopted (autocorrect : Bool) (fileName : Text) (fields : List (Text × Json)) : List (Text × Json) :=
  if (Json.lookup "path" (flagged autocorrect fields)).isSome then flagged autocorrect fields
  else Json.put "path" (.str fileName) (flagged autocorrect fields)

theorem adopt_obj : adopt arguments fileName (.obj fields)
    = .ok (.obj (adopted arguments.autocorrect fileName fields)) := rfl

theorem lookup_flagged (autocorrect : Bool) (fields : List (Text × Json)) (key : Text) :
    Json.lookup key (flagged autocorrect fields)
      = if autocorrect = true ∧ key = "autocorrect" then some (.bool true) else Json.lookup key fields := by
  cases autocorrect with
  | false => rfl
  | true => simp only [flagged, if_true, Json.lookup_put, true_and, eq_comm]

/-- What the request has under a key. -/
theorem lookup_adopted (autocorrect : Bool) (fileName : Text) (fields : List (Text × Json)) (key : Text) :
    Json.lookup key (adopted autocorrect fileName fields) =
      if autocorrect = true ∧ key = "autocorrect" then some (.bool true)
      else if key = "path" then some ((Json.lookup "path" fields).getD (.str fileName))
      else Json.lookup key fields := by
  have other : ¬ (autocorrect = true ∧ ("path" : Text) = "autocorrect") := by
    rintro ⟨-, same⟩
    exact absurd same (by decide)
  have path : Json.lookup "path" (flagged autocorrect fields) = Json.lookup "path" fields :=
    (lookup_flagged autocorrect fields "path").trans (if_neg other)
  rw [adopted, path]
  by_cases here : key = "path"
  · subst here
    rw [if_neg other, if_pos rfl]
    cases given : Json.lookup "path" fields with
    | some v => exact path.trans given
    | none => exact (Json.lookup_put ..).trans (if_pos rfl)
  · rw [if_neg here, ← lookup_flagged]
    cases Json.lookup "path" fields with
    | some v => rfl
    | none => exact (Json.lookup_put ..).trans (if_neg (Ne.symm here))

theorem lookup_adopted_of_other {autocorrect : Bool} {key : Text} (flag : key ≠ "autocorrect")
    (path : key ≠ "path") : Json.lookup key (adopted autocorrect fileName fields) = Json.lookup key fields := by
  rw [lookup_adopted, if_neg fun h => flag h.2, if_neg path]

theorem texts_flagged {autocorrect : Bool} {t : Text} (h : t ∈ Json.fieldTexts (flagged autocorrect fields)) :
    t = "autocorrect" ∨ t ∈ Json.fieldTexts fields := by
  cases autocorrect with
  | false => exact Or.inr h
  | true =>
    rcases Json.mem_fieldTexts_put h with key | truth | here
    · exact Or.inl key
    · cases truth
    · exact Or.inr here

/-- The request has no text that is not in the file, but for two keys and the name of the file. -/
theorem texts_adopted {autocorrect : Bool} {t : Text}
    (h : t ∈ Json.fieldTexts (adopted autocorrect fileName fields)) :
    t = "autocorrect" ∨ t ∈ Json.fieldTexts fields ∨ t = "path" ∨ t = fileName := by
  rw [adopted] at h
  split at h
  · exact (texts_flagged h).imp_right Or.inl
  · rcases Json.mem_fieldTexts_put h with key | name | here
    · exact Or.inr (Or.inr (Or.inl key))
    · exact Or.inr (Or.inr (Or.inr (List.mem_singleton.1 name)))
    · exact (texts_flagged here).imp_right Or.inl

end Request

end CommandLine

/-! ## The answer -/

section Answers

variable {κ κ' : Type} [DecidableEq κ] [DecidableEq κ'] {settings : Settings} {request : Json}

/-- How a run ends does not depend on where its findings go. -/
theorem outcome_of_sinks (sinks : List (Sink κ)) (sinks' : List (Sink κ')) :
    (lint settings sinks request).outcome = (lint settings sinks' request).outcome := by
  cases accepted : Contract.lintRequest.accepts request with
  | false => rw [outcome_of_refused accepted, outcome_of_refused accepted]
  | true =>
    cases loaded : Document.load settings request with
    | error e => rw [outcome_of_error accepted loaded, outcome_of_error accepted loaded]
    | ok d => rw [outcome_of_load accepted loaded, outcome_of_load accepted loaded]

/-- A request whose offsets are written as integers is answered. -/
theorem exists_answer (settings : Settings) (sinks : List (Sink κ)) (integral : HasIntegralTree request) :
    ∃ answer, (lint settings sinks request).outcome.answer? = some answer := by
  have proper := (isProper_or_fault settings sinks request).resolve_right fun stops =>
    not_stopsAtDecimal integral stops.1
  obtain ⟨answer, given, -⟩ := proper.2.exists_answer
  exact ⟨answer, given⟩

end Answers

/-! ## Reports are read back -/

/-- Numbers up to this one have no more digits than are read. -/
def Room (limit : Option Nat) (k : Nat) : Prop := ∀ l ∈ limit, 0 < l ∧ k < Nat.pow 10 l

section Reading

variable {limit : Option Nat} {k : Nat}

theorem Room.int (room : Room limit k) {n : Int} (h : n.natAbs ≤ k) : Readable limit (.int n) := by
  refine .int fun l hl => ?_
  obtain ⟨pos, below⟩ := room l hl
  exact Text.length_ofNat_le pos (Nat.lt_of_le_of_lt h below)

/-- The place of a node is within its source. -/
theorem natAbs_le_of_placed {t : Text} {n : Node} (h : Placed (Buffer.ofText t) n) :
    n.span.begin.natAbs ≤ t.length + 1 ∧ n.span.stop.natAbs ≤ t.length + 1
      ∧ n.span.line.natAbs ≤ t.length + 1 ∧ n.span.column.natAbs ≤ t.length + 1 := by
  obtain ⟨span, begin₀, ordered, bound⟩ := h
  have bound : n.span.stop ≤ t.length := bound
  have front : (t.take n.span.begin.toNat).length ≤ t.length := List.length_take_le' _ _
  have line : n.span.line = Text.newlines (t.take n.span.begin.toNat) + 1 := by
    rw [span, Buffer.line_span t begin₀]
    rfl
  have column : n.span.column = Text.lastLine (t.take n.span.begin.toNat) := by
    rw [span, Buffer.column_span_of_le begin₀ (by omega)]
    rfl
  have newlines : Text.newlines (t.take n.span.begin.toNat) ≤ (t.take n.span.begin.toNat).length :=
    List.countP_le_length
  have last := Text.lastLine_le_length (t.take n.span.begin.toNat)
  refine ⟨?_, ?_, ?_, ?_⟩ <;> omega

theorem readable_reportedFinding {t : Text} {r : ReportedFinding} (room : Room limit (t.length + 1))
    (placed : Placed (Buffer.ofText t) r.finding.anchor.node) : Readable limit r.toJson := by
  obtain ⟨begin, stop, line, column⟩ := natAbs_le_of_placed placed
  refine .obj ?_ ?_
  · show (["cop", "severity", "message", "enum_name", "begin", "end", "line", "column", "source",
      "correctable"] : List Text).Nodup
    decide
  · simp only [Finding.fields, List.forall_mem_append, List.forall_mem_cons]
    exact ⟨⟨.str _, .str _, .str _, .str _, room.int begin, room.int stop, room.int line, room.int column,
      .str _, List.forall_mem_nil _⟩, .bool _, List.forall_mem_nil _⟩

/-- A report is read back if its findings are, and if it counts no more corrections than findings. -/
theorem readable_report {r : Report} (each : ∀ f ∈ r.findings, Readable limit f.toJson)
    (few : Room limit r.findings.length) (path : ∀ v, r.path = some v → ∃ t, v = .str t)
    (count : ∀ c, r.corrected = some c → c.count ≤ r.findings.length) : Readable limit r.toJson := by
  have distinct : ∀ path corrected, (Report.keys path corrected).Nodup := by decide
  refine .obj ?_ ?_
  · rw [r.map_fst_fields rfl]
    exact distinct _ _
  · simp only [List.forall_mem_append, List.forall_mem_cons]
    refine ⟨.str _, .str _, few.int (Nat.le_refl _), .arr ?_, ?_, ?_⟩
    · exact List.forall_mem_map.2 each
    · intro f hf
      obtain ⟨v, hv, rfl⟩ := List.mem_map.1 hf
      obtain ⟨t, rfl⟩ := path v (Option.mem_toList.1 hv)
      exact .str t
    · cases hc : r.corrected with
      | none => exact List.forall_mem_nil _
      | some c =>
        exact List.forall_mem_cons.2 ⟨few.int (count c hc), List.forall_mem_singleton.2 (.str _)⟩

/-- **The crux.**  A report is read back if the length of the source and the number of findings have no more
    digits than are read. -/
theorem readable_of_report {κ : Type} [DecidableEq κ] {settings : Settings} {sinks : List (Sink κ)}
    {request : Json} {r : Report} (h : (lint settings sinks request).outcome = .report r) {source : Text}
    (hs : request.get? "source" = some (.str source)) (room : Room limit (source.length + 1))
    (few : Room limit r.findings.length) : Readable limit r.toJson := by
  obtain ⟨d, loaded, concluded⟩ := exists_load_of_report h
  have kept := isProper_conclude settings request d (Lint.findings settings d)
  rw [concluded] at kept
  obtain ⟨path, -⟩ := accepts_lintReport_iff.1 kept
  obtain ⟨text, root, env, hb, -⟩ := Document.load_eq_ok loaded
  obtain rfl := Json.str.inj (Option.some.inj (hs.symm.trans env.source_eq))
  obtain ⟨rfl, -⟩ := Lint.eq_reportOf_of_conclude _ _ _ _ concluded
  refine readable_report ?_ few path ?_
  · intro reported hr
    obtain ⟨f, hf, rfl⟩ := List.mem_map.1 hr
    have placed := Lint.placed_of_mem_findings loaded hf
    rw [hb] at placed
    exact readable_reportedFinding room placed
  · intro c hc
    obtain ⟨-, rfl⟩ := Lint.corrected_reportOf _ _ _ _ hc
    show (Lint.corrections settings request (Lint.findings settings d)).eraseDups.length
      ≤ ((Lint.findings settings d).map _).length
    have once := List.subperm_of_subset (CorrectionQueue.nodup_eraseDups
      (Lint.corrections settings request (Lint.findings settings d))) fun c hc => List.mem_eraseDups.1 hc
    rw [List.length_map]
    exact once.length_le.trans (List.length_filterMap_le _ _)

end Reading

section Answers

variable {κ : Type} [DecidableEq κ] {settings : Settings} {sinks : List (Sink κ)} {request answer : Json}

/-- Whatever an answer says is ASCII or stands in a string of the request. -/
theorem drawn_of_answer (h : (lint settings sinks request).outcome.answer? = some answer) :
    DrawnFrom request.texts answer := by
  cases ended : (lint settings sinks request).outcome with
  | report r =>
    rw [ended] at h
    obtain rfl := Option.some.inj h
    exact drawn_of_report ended
  | rejected r =>
    rw [ended] at h
    obtain rfl := Option.some.inj h
    have keys : ∀ key ∈ (["status", "reason", "detail"] : List Text), ∀ c ∈ key, c.val < 0x80 := by
      decide
    have reason : ∀ c ∈ r.reason.name, c.val < 0x80 := by cases r <;> decide
    have detail : ∀ c ∈ r.detail, c.val < 0x80 := by cases r <;> decide
    refine Json.drawnFrom_obj keys ?_
    simp only [List.forall_mem_cons]
    exact ⟨Json.drawnFrom_ascii (by decide), Json.drawnFrom_ascii reason, Json.drawnFrom_ascii detail,
      List.forall_mem_nil _⟩
  | fault =>
    rw [ended] at h
    cases h

/-- An answer is read back if the length of the source and the number of findings have no more digits than
    are read. -/
theorem readable_of_answer (h : (lint settings sinks request).outcome.answer? = some answer)
    {limit : Option Nat}
    (room : ∀ source, request.get? "source" = some (.str source) → Room limit (source.length + 1))
    (few : ∀ found, answer.get? "findings" = some (.arr found) → Room limit found.length) :
    Readable limit answer := by
  cases ended : (lint settings sinks request).outcome with
  | report r =>
    rw [ended] at h
    obtain rfl := Option.some.inj h
    obtain ⟨d, loaded, -⟩ := exists_load_of_report ended
    obtain ⟨source, root, env, -⟩ := Document.load_eq_ok loaded
    have few := few _ r.listed.1
    rw [List.length_map] at few
    exact readable_of_report ended env.source_eq (room source env.source_eq) few
  | rejected r =>
    rw [ended] at h
    obtain rfl := Option.some.inj h
    refine .obj ?_ ?_
    · show (["status", "reason", "detail"] : List Text).Nodup
      decide
    · simp only [List.forall_mem_cons]
      exact ⟨.str _, .str _, .str _, List.forall_mem_nil _⟩
  | fault =>
    rw [ended] at h
    cases h

end Answers

namespace CommandLine

/-- **The exit status** tells errors, findings and clean reports apart. -/
theorem exitStatus_iff {o : Outcome} {answer : Json} (h : o.answer? = some answer) :
    (exitStatus o = 2 ↔ answer.get? "status" = some (.str "error"))
    ∧ (exitStatus o = 1 ↔ ∃ found, answer.get? "findings" = some (.arr found) ∧ found ≠ [])
    ∧ (exitStatus o = 0 ↔ answer.get? "status" ≠ some (.str "error")
      ∧ ¬ ∃ found, answer.get? "findings" = some (.arr found) ∧ found ≠ []) := by
  cases o with
  | fault => cases h
  | rejected r =>
    obtain rfl := Option.some.inj h
    have error : r.toJson.get? "status" = some (.str "error") := rfl
    have without : ¬ ∃ found, r.toJson.get? "findings" = some (.arr found) ∧ found ≠ [] := by
      rintro ⟨found, listed, -⟩
      cases listed
    refine ⟨⟨fun _ => error, fun _ => rfl⟩, ⟨nofun, fun offense => absurd offense without⟩, ⟨nofun, ?_⟩⟩
    exact fun clean => absurd error clean.1
  | report r =>
    obtain rfl := Option.some.inj h
    obtain ⟨listed, -, status, -⟩ := r.listed
    have fine : r.toJson.get? "status" ≠ some (.str "error") := by
      rw [status, Report.status]
      split <;> exact fun same => absurd (Json.str.inj (Option.some.inj same)) (by decide)
    have offense : (∃ found, r.toJson.get? "findings" = some (.arr found) ∧ found ≠ [])
        ↔ r.findings ≠ [] := by
      rw [listed]
      constructor
      · rintro ⟨found, same, offense⟩ clean
        rw [← Json.arr.inj (Option.some.inj same), clean] at offense
        exact offense rfl
      · exact fun offense => ⟨_, rfl, fun clean => offense (List.map_eq_nil_iff.1 clean)⟩
    have status : exitStatus (.report r) ≠ 2 ∧ (exitStatus (.report r) = 1 ↔ r.findings ≠ [])
        ∧ (exitStatus (.report r) = 0 ↔ r.findings = []) := by
      cases hf : r.findings <;> simp [exitStatus, hf]
    rw [offense, not_not]
    exact ⟨⟨fun two => absurd two status.1, fun error => absurd error fine⟩, status.2.1,
      status.2.2.trans ⟨fun clean => ⟨fine, clean⟩, fun clean => clean.2⟩⟩

/-- The answer of the run is printed, with a newline behind it. -/
theorem respond_eq {settings : Settings} {a : Arguments} {fileName text : Text} {asked answer : Json}
    (read : request a fileName text = .ok asked)
    (given : (lint settings (sinks a asked) asked).outcome.answer? = some answer) :
    respond settings a fileName text = .ok ⟨exitStatus (lint settings (sinks a asked) asked).outcome,
      answer.render ++ ("\n" : Text), warningLines (lint settings (sinks a asked) asked).outbox.log⟩ := by
  unfold respond
  rw [read]
  simp only [bind, Except.bind, given]
  rfl

/-- **The command line answers as a run does.**  The name of a file is the last part of its path, whatever
    directory it is in; a slash at the end of a path, or a dot behind one, does not count.  Take a file that
    holds an object whose offsets are written as integers, and any choice of options.  The run goes over the
    object with the flag set if the caller says so, and with the name of the file for a path if it has none.
    One line is printed: there is no control character
    in it before the newline that ends it, it can be encoded if the strings of the file can, and it is read back
    as the answer of the run.  (That takes no limit on the digits of an integer, or a source and findings that
    are fewer than ten to the limit.)  The exit status is 2 for an error, 1 for a report with findings and 0 for
    any other.  Line and status are the same wherever the findings go. -/
theorem respond_answers (settings : Settings) {text : Text} {fields : List (Text × Json)}
    (parsed : Json.parse text = .ok (.obj fields)) (integral : HasIntegralTree (.obj fields))
    (document : Text) (autocorrect : Bool) :
    (∀ directory name : Text, CodePoint.ofChar '/' ∉ name → name ≠ [] → name ≠ ("." : Text) →
      baseName name = name ∧ baseName (directory ++ CodePoint.ofChar '/' :: name) = name)
    ∧ (∀ path : Text, baseName (path ++ ("/" : Text)) = baseName path
      ∧ baseName (path ++ ("/." : Text)) = baseName path)
    ∧ ∃ request answer line status,
      request.isObject = true
      ∧ (∀ key : Text, request.get? key =
        if autocorrect = true ∧ key = "autocorrect" then some (.bool true)
        else if key = "path" then some ((Json.lookup "path" fields).getD (.str (baseName document)))
        else Json.lookup key fields)
      ∧ (∀ (κ : Type) [DecidableEq κ] (sinks : List (Sink κ)),
        (lint settings sinks request).outcome.answer? = some answer)
      ∧ (∀ c ∈ line, 0x20 ≤ c.val)
      ∧ ((∀ t ∈ (Json.obj fields).texts, t.isEncodable = true) →
        (baseName document).isEncodable = true → line.isEncodable = true)
      ∧ Json.parseWithin none line = .ok answer
      ∧ ((∀ source, Json.lookup "source" fields = some (.str source) →
          source.length + 1 < Nat.pow 10 Text.digitLimit) →
        (∀ found, answer.get? "findings" = some (.arr found) →
          found.length < Nat.pow 10 Text.digitLimit) →
        Json.parse line = .ok answer)
      ∧ (status = 2 ↔ answer.get? "status" = some (.str "error"))
      ∧ (status = 1 ↔ ∃ found, answer.get? "findings" = some (.arr found) ∧ found ≠ [])
      ∧ (status = 0 ↔ answer.get? "status" ≠ some (.str "error")
        ∧ ¬ ∃ found, answer.get? "findings" = some (.arr found) ∧ found ≠ [])
      ∧ ∀ logged,
        (classify document = .ok (.plain document) →
          ∀ options ∈ Arguments.options ⟨document, autocorrect, logged⟩,
            Arguments.parse (document :: options) = .ok ⟨document, autocorrect, logged⟩)
        ∧ ∃ errors, respond settings ⟨document, autocorrect, logged⟩ (baseName document) text
          = .ok ⟨status, line ++ ("\n" : Text), errors⟩ := by
  have adopts := lookup_adopted autocorrect (baseName document) fields
  have same : HasIntegralTree (.obj (adopted autocorrect (baseName document) fields)) := by
    intro root hr
    exact integral root ((lookup_adopted_of_other (by decide) (by decide)).symm.trans hr)
  obtain ⟨answer, given⟩ := exists_answer settings ([] : List (Sink Empty)) same
  have every (κ : Type) [DecidableEq κ] (sinks : List (Sink κ)) :
      (lint settings sinks (.obj (adopted autocorrect (baseName document) fields))).outcome.answer?
        = some answer := by
    rw [outcome_of_sinks sinks ([] : List (Sink Empty)), given]
  have shown := Json.shown_of_mem_render answer
  obtain ⟨error, offense, clean⟩ := exitStatus_iff given
  refine ⟨fun directory name whole filled other => ⟨baseName_of_not_mem whole filled other,
      baseName_append whole filled other directory⟩,
    fun path => ⟨baseName_append_idle path (Or.inl rfl), baseName_append_idle path (Or.inr rfl)⟩, ?_⟩
  refine ⟨.obj (adopted autocorrect (baseName document) fields), answer, answer.render, _, rfl, adopts, every,
    fun c hc => (shown c hc).1, ?_, ?_, ?_, error, offense, clean, ?_⟩
  · intro whole name
    refine isEncodable_of_drawn (fun c hc => (drawn_of_answer given).drawn (shown c hc).2) ?_
    intro u hu
    rcases texts_adopted hu with rfl | listed | rfl | rfl
    · decide
    · exact whole u listed
    · decide
    · exact name
  · exact Json.parseWithin_render (readable_of_answer given (fun _ _ => nofun) fun _ _ => nofun)
  · intro short few
    have room {k : Nat} (h : k < Nat.pow 10 Text.digitLimit) : Room (some Text.digitLimit) k := by
      intro l hl
      obtain rfl := Option.some.inj hl
      exact ⟨by decide, h⟩
    refine Json.parseWithin_render (readable_of_answer given ?_ fun found hf => room (few found hf))
    intro text hs
    exact room (short text ((lookup_adopted_of_other (by decide) (by decide)).symm.trans hs))
  · intro logged
    refine ⟨Arguments.parse_options (a := ⟨document, autocorrect, logged⟩), ?_⟩
    have asked : CommandLine.request ⟨document, autocorrect, logged⟩ (baseName document) text
        = .ok (.obj (adopted autocorrect (baseName document) fields)) := by
      rw [CommandLine.request, parsed]
      exact adopt_obj
    have printed := respond_eq asked (every Empty _)
    rw [outcome_of_sinks _ ([] : List (Sink Empty))] at printed
    exact ⟨_, printed⟩

/-- A file with a comment only.  Its wish for a correction is no Boolean, which the flag puts right. -/
def commentOnly : List (Text × Json) :=
  [("source", .str "# \"ü\"\n"), ("ast", .null), ("autocorrect", .str "yes")]

/-- The comment is printed as the corrected source, with its quotes and its newline, and the path in the
    answer is the name of the file without its directory. -/
theorem respond_answers_commentOnly :
    Json.parse (Json.obj commentOnly).render = .ok (.obj commentOnly) ∧ HasIntegralTree (.obj commentOnly)
    ∧ ∃ asked answer line errors,
      asked.get? "path" = some (.str "list.json")
      ∧ (lint .standard ([] : List (Sink Empty)) asked).outcome.answer? = some answer
      ∧ answer.get? "path" = some (.str "list.json")
      ∧ respond .standard ⟨"lib/list.json", true, true⟩ (baseName "lib/list.json") (Json.obj commentOnly).render
        = .ok ⟨0, line ++ ("\n" : Text), errors⟩
      ∧ (∀ c ∈ line, 0x20 ≤ c.val) ∧ Json.parseWithin none line = .ok answer
      ∧ answer.get? "status" ≠ some (.str "error") := by
  have readable : Readable (some Text.digitLimit) (.obj commentOnly) := by
    refine .obj (by decide) ?_
    simp only [commentOnly, List.forall_mem_cons]
    exact ⟨.str _, .null, .str _, List.forall_mem_nil _⟩
  have parsed : Json.parse (Json.obj commentOnly).render = .ok (.obj commentOnly) :=
    Json.parseWithin_render readable
  have integral : HasIntegralTree (.obj commentOnly) := .of_null rfl
  obtain ⟨named, -, asked, answer, line, status, -, fields, given, visible, -, read, -, -, -, clean, printed⟩ :=
    respond_answers .standard parsed integral "lib/list.json" true
  obtain ⟨-, errors, printed⟩ := printed true
  have name : baseName "lib/list.json" = ("list.json" : Text) :=
    (named "lib" "list.json" (by decide) (by decide) (by decide)).2
  have path : asked.get? "path" = some (.str "list.json") := by
    rw [fields, if_neg (by decide), if_pos rfl, name]
    rfl
  -- the same call, computed
  have asks : request ⟨"lib/list.json", true, true⟩ "list.json" (Json.obj commentOnly).render
      = .ok (.obj (adopted true "list.json" commentOnly)) := by
    rw [request, parsed]
    exact adopt_obj
  obtain ⟨computed, answers, told⟩ : ∃ answer, (lint .standard (sinks ⟨"lib/list.json", true, true⟩
      (.obj (adopted true "list.json" commentOnly)))
      (.obj (adopted true "list.json" commentOnly))).outcome.answer? = some answer
      ∧ answer.get? "path" = some (.str "list.json") := ⟨_, rfl, rfl⟩
  rw [name] at printed
  have same := printed.symm.trans (respond_eq asks answers)
  have zero : status = 0 := congrArg Response.status (Except.ok.inj same)
  subst zero
  -- the line is that of the computed answer, so that it is read back as this one
  obtain rfl := List.append_cancel_right (congrArg Response.output (Except.ok.inj same))
  have again : Json.parseWithin none computed.render = .ok computed :=
    Json.parseWithin_render (readable_of_answer answers (fun _ _ => nofun) fun _ _ => nofun)
  obtain rfl := Except.ok.inj (read.symm.trans again)
  rw [name]
  exact ⟨parsed, integral, asked, answer, _, errors, path, given Empty [], told, printed, visible, read,
    (clean.1 rfl).1⟩

end CommandLine

end NegationLint
