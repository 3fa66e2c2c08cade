/-
  What one inspection finds.

  An inspection carries its findings along and looks through all of them before it adds one.  Here the same
  is said entry by entry, without looking back:

  1. `entryFindings` — what is found for one entry of a declaration, from that entry alone.  One thing has
     to be known of what came before: a list of values whose own key is negated is reported already;
  2. `Clear` — THE INVARIANT: no finding so far is anchored at a position or below it.  What is recorded
     there is new (`record_of_clear`), and what is found below one node leaves clear every other that
     stands apart (`foldl_apart`);
  3. `checkKey_of_clear`, `checkValue_of_clear`, `checkEntry_of_clear` — ONE STEP each;
  4. `inspect_of_apart` — ALL STEPS: an inspection finds what its entries have, one after another, and
     `findingsAt_eq` is the same for a node, declaration or not;
  5. `severity_of_mem_findings` — so a run finds nothing without the severity that is configured.
-/
import NegationLint.Lint
import NegationLint.Proofs.Anchors

namespace NegationLint

namespace EnumRule

/-! ## Entry by entry -/

/-- The finding at the value of an entry whose key is negated; none for any other node. -/
def keyFindings (severity : Text) (l : Located) : List Finding :=
  match entry? l with
  | some (key, value) =>
    if isNegated key.literalName then [⟨value, key.literalName, severity⟩] else []
  | none => []

/-- What is found in the value of an entry: the negated entries of a hash, or a list with a negated
    element, under the first such element, unless the list is reported for its own key. -/
def valueFindings (severity : Text) (reported : Bool) (value : Located) : List Finding :=
  match value.node with
  | .hash _ entries => (Located.siblings value.position 0 entries).flatMap (keyFindings severity)
  | .array _ elements =>
    if reported then []
    else (elements.find? (isNegated ·.literalName)).toList.map fun e => ⟨value, e.literalName, severity⟩
  | _ => []

/-- What is found for an entry: first for its key and then in its value. -/
def entryFindings (severity : Text) (l : Located) : List Finding :=
  match entry? l with
  | some (key, value) => keyFindings severity l ++ valueFindings severity (isNegated key.literalName) value
  | none => []

section Entry

variable {severity : Text} {l value : Located} {key : Node}

theorem keyFindings_of_entry (h : entry? l = some (key, value)) : keyFindings severity l
    = if isNegated key.literalName then [⟨value, key.literalName, severity⟩] else [] := by
  rw [keyFindings, h]

theorem keyFindings_of_none (h : entry? l = none) : keyFindings severity l = [] := by
  rw [keyFindings, h]

theorem entryFindings_of_entry (h : entry? l = some (key, value)) : entryFindings severity l
    = keyFindings severity l ++ valueFindings severity (isNegated key.literalName) value := by
  rw [entryFindings, h]

theorem entryFindings_of_none (h : entry? l = none) : entryFindings severity l = [] := by
  rw [entryFindings, h]

theorem position_of_entry (h : entry? l = some (key, value)) :
    value.position = l.position ++ [1] := by
  obtain ⟨site, n, -, rfl⟩ := entry?_eq_some_iff.1 h
  rfl

/-! ## Below the entry -/

theorem mem_keyFindings {f : Finding} (hf : f ∈ keyFindings severity l) :
    f.severity = severity ∧ f.anchor.position = l.position ++ [1] := by
  cases he : entry? l with
  | none =>
    rw [keyFindings_of_none he] at hf
    cases hf
  | some entry =>
    obtain ⟨key, value⟩ := entry
    rw [keyFindings_of_entry he] at hf
    split at hf
    · obtain rfl := List.mem_singleton.1 hf
      exact ⟨rfl, position_of_entry he⟩
    · cases hf

theorem below_of_mem_keyFindings {f : Finding} (hf : f ∈ keyFindings severity l) :
    l.position <+: f.anchor.position := by
  rw [(mem_keyFindings hf).2]
  exact List.prefix_append _ _

theorem mem_valueFindings {reported : Bool} {f : Finding}
    (hf : f ∈ valueFindings severity reported value) :
    f.severity = severity ∧ value.position <+: f.anchor.position := by
  rw [valueFindings] at hf
  split at hf
  · obtain ⟨inner, hl, hf⟩ := List.mem_flatMap.1 hf
    obtain ⟨i, n, -, rfl⟩ := Located.mem_siblings.1 hl
    exact ⟨(mem_keyFindings hf).1, (List.prefix_append _ _).trans (below_of_mem_keyFindings hf)⟩
  · split at hf
    · cases hf
    · obtain ⟨e, -, rfl⟩ := List.mem_map.1 hf
      exact ⟨rfl, List.prefix_rfl⟩
  · cases hf

/-- What is found for an entry has the severity asked for and is anchored below the entry. -/
theorem mem_entryFindings {f : Finding} (hf : f ∈ entryFindings severity l) :
    f.severity = severity ∧ l.position <+: f.anchor.position := by
  cases he : entry? l with
  | none =>
    rw [entryFindings_of_none he] at hf
    cases hf
  | some entry =>
    obtain ⟨key, value⟩ := entry
    rw [entryFindings_of_entry he] at hf
    rcases List.mem_append.1 hf with hf | hf
    · exact ⟨(mem_keyFindings hf).1, below_of_mem_keyFindings hf⟩
    · obtain ⟨same, below⟩ := mem_valueFindings hf
      rw [position_of_entry he] at below
      exact ⟨same, (List.prefix_append _ _).trans below⟩

end Entry

/-! ## Nothing found there yet -/

/-- None of the findings is anchored at the position or below it. -/
def Clear (position : List Nat) (found : List Finding) : Prop :=
  ∀ f ∈ found, ¬ position <+: f.anchor.position

section Clear

variable {p q : List Nat} {found more : List Finding}

theorem Clear.below (h : Clear p found) (leads : p <+: q) : Clear q found :=
  fun f hf other => h f hf (leads.trans other)

theorem Clear.append (h : Clear p found) (h' : Clear p more) : Clear p (found ++ more) := by
  intro f hf
  rcases List.mem_append.1 hf with hf | hf
  · exact h f hf
  · exact h' f hf

theorem Clear.not_mem_anchored (h : Clear p found) : p ∉ anchored found := by
  intro hp
  obtain ⟨f, hf, rfl⟩ := List.mem_map.1 hp
  exact h f hf List.prefix_rfl

/-- What is anchored below one position leaves clear what is apart from it. -/
theorem clear_of_apart (apart : Apart p q) (below : ∀ f ∈ found, p <+: f.anchor.position) :
    Clear q found :=
  fun f hf => apart.not_below (below f hf)

/-- A position is clear of findings that are anchored where it comes from. -/
theorem clear_of_anchored (i : Nat) (here : ∀ f ∈ found, f.anchor.position = p) :
    Clear (p ++ [i]) found := by
  intro f hf leads
  have := leads.length_le
  rw [here f hf, List.length_append, List.length_singleton] at this
  omega

end Clear

/-- Along nodes that stand apart: steps that add what they find below their own node, if nothing is found
    there yet, add one after another.  By induction on the nodes. -/
theorem foldl_apart {step : List Finding → Located → List Finding} {adds : Located → List Finding}
    (one : ∀ l found, Clear l.position found → step found l = found ++ adds l)
    (below : ∀ l, ∀ f ∈ adds l, l.position <+: f.anchor.position) {ls : List Located}
    (apart : ls.Pairwise fun a b => Apart a.position b.position) (found : List Finding)
    (clear : ∀ l ∈ ls, Clear l.position found) :
    ls.foldl step found = found ++ ls.flatMap adds := by
  induction ls generalizing found with
  | nil => exact (List.append_nil found).symm
  | cons l ls ih =>
    rw [List.pairwise_cons] at apart
    have here := one l found (clear l List.mem_cons_self)
    have others : ∀ m ∈ ls, Clear m.position (found ++ adds l) := by
      intro m hm
      exact (clear m (List.mem_cons_of_mem _ hm)).append (clear_of_apart (apart.1 m hm) (below l))
    rw [List.foldl_cons, here, ih apart.2 _ others, List.flatMap_cons, List.append_assoc]

/-! ## One step -/

section Step

variable {severity : Text} {found : List Finding}

/-- What is recorded where nothing is found yet is new. -/
theorem record_of_clear {anchor : Located} (name : Text) (h : Clear anchor.position found) :
    record severity anchor name found = found ++ [⟨anchor, name, severity⟩] := by
  rw [record_eq, if_neg h.not_mem_anchored]

theorem checkKey_of_clear (l : Located) (h : Clear l.position found) :
    checkKey severity found l = found ++ keyFindings severity l := by
  rw [checkKey]
  cases he : entry? l with
  | none =>
    rw [keyFindings_of_none he, List.append_nil]
  | some entry =>
    obtain ⟨key, value⟩ := entry
    have there : Clear value.position found := by
      rw [position_of_entry he]
      exact h.below (List.prefix_append _ _)
    rw [keyFindings_of_entry he]
    dsimp only
    split
    · exact record_of_clear key.literalName there
    · exact (List.append_nil found).symm

/-- The value of an entry, with the one thing that has to be known of it: whether it is reported. -/
theorem checkValue_of_clear (value : Located) (h : ∀ i, Clear (value.position ++ [i]) found)
    {reported : Bool} (known : reported = true ↔ value.position ∈ anchored found) :
    checkValue severity found value = found ++ valueFindings severity reported value := by
  have unchanged : found = found ++ [] := (List.append_nil found).symm
  obtain ⟨position, n⟩ := value
  cases n with
  | hash site entries =>
    refine foldl_apart (fun l found => checkKey_of_clear l)
      (fun l f hf => below_of_mem_keyFindings hf) (Located.apart_siblings position 0 entries) found ?_
    intro l hl
    obtain ⟨i, n, -, rfl⟩ := Located.mem_siblings.1 hl
    exact h (0 + i)
  | array site elements =>
    rw [checkValue, valueFindings]
    dsimp only
    cases elements.find? (isNegated ·.literalName) with
    | none =>
      rw [Option.toList_none, List.map_nil, ite_self]
      exact unchanged
    | some e =>
      rw [Option.toList_some, List.map_singleton]
      dsimp only
      rw [record_eq]
      cases reported with
      | true => rw [if_pos (known.1 rfl), if_pos rfl, List.append_nil]
      | false => rw [if_neg fun h => Bool.false_ne_true (known.2 h), if_neg Bool.false_ne_true]
  | _ => exact unchanged

/-- An entry adds what is found for it. -/
theorem checkEntry_of_clear (l : Located) (h : Clear l.position found) :
    checkEntry severity found l = found ++ entryFindings severity l := by
  rw [checkEntry]
  cases he : entry? l with
  | none =>
    rw [entryFindings_of_none he, List.append_nil]
  | some entry =>
    obtain ⟨key, value⟩ := entry
    have position := position_of_entry he
    have there : Clear value.position found := by
      rw [position]
      exact h.below (List.prefix_append _ _)
    have inside (i : Nat) : Clear (value.position ++ [i]) (found ++ keyFindings severity l) := by
      refine (there.below (List.prefix_append _ _)).append (clear_of_anchored i ?_)
      intro f hf
      rw [(mem_keyFindings hf).2, position]
    -- of all findings so far only the one for the entry's own key can be at its value
    have known : isNegated key.literalName = true
        ↔ value.position ∈ anchored (found ++ keyFindings severity l) := by
      have split : value.position ∈ anchored (found ++ keyFindings severity l)
          ↔ value.position ∈ anchored (keyFindings severity l) := by
        rw [anchored, List.map_append, List.mem_append]
        exact or_iff_right there.not_mem_anchored
      rw [split, keyFindings_of_entry he]
      cases isNegated key.literalName <;> simp [anchored]
    rw [entryFindings_of_entry he, ← List.append_assoc]
    dsimp only
    rw [checkKey_of_clear l h, checkValue_of_clear value inside known]

end Step

/-! ## All steps -/

/-- **An inspection looks at its entries one by one.**  It finds what is found for each of them alone, if
    they stand apart. -/
theorem inspect_of_apart (severity : Text) {ls : List Located}
    (apart : ls.Pairwise fun a b => Apart a.position b.position) :
    inspect severity ls = ls.flatMap (entryFindings severity) :=
  foldl_apart (fun l _ => checkEntry_of_clear l) (fun _ _ hf => (mem_entryFindings hf).2) apart
    [] nofun

/-- What is found at a node: what is found for each of its entries, if it is a declaration. -/
theorem findingsAt_eq (severity : Text) (l : Located) :
    findingsAt severity l = ((enumEntries? l).getD []).flatMap (entryFindings severity) := by
  rw [findingsAt]
  cases he : enumEntries? l with
  | none => rfl
  | some ls =>
    obtain ⟨site, hashSite, entries, -, rfl⟩ := enumEntries?_eq_some_iff.1 he
    exact inspect_of_apart severity (Located.apart_siblings _ 0 entries)

theorem severity_of_mem_findingsAt {severity : Text} {l : Located} {f : Finding}
    (hf : f ∈ findingsAt severity l) : f.severity = severity := by
  rw [findingsAt_eq] at hf
  obtain ⟨entry, -, hf⟩ := List.mem_flatMap.1 hf
  exact (mem_entryFindings hf).1

end EnumRule

/-! ## The findings of a run -/

namespace Lint

/-- A run finds what is found at the nodes of the walk, one after another, unless the rule is disabled. -/
theorem findings_eq (settings : Settings) (d : Document) : findings settings d
    = if settings.enabled then d.walk.flatMap (EnumRule.findingsAt settings.severity) else [] := by
  rw [findings, Document.walk]
  cases d.root <;> rfl

/-- Whatever a run finds carries the severity that is configured. -/
theorem severity_of_mem_findings {settings : Settings} {d : Document} {f : Finding}
    (hf : f ∈ findings settings d) : f.severity = settings.severity := by
  rw [findings_eq] at hf
  split at hf
  · obtain ⟨l, -, hf⟩ := List.mem_flatMap.1 hf
    exact EnumRule.severity_of_mem_findingsAt hf
  · cases hf

end Lint

end NegationLint
