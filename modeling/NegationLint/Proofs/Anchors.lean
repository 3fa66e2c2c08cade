/-
  Where the rule reports.

  The rule runs on every node of a document, and every declaration it comes to is inspected on its own:
  an inspection looks for a second finding at the same node among its own findings only.  That this is
  enough, and which nodes are reported, is said here for the whole run.

  1. `Adds` — what one step of an inspection does to the findings: it keeps them, and adds the anchors
     of a given sort, those that are new.  Steps compose, also along a list (`Adds.foldl`), so there is
     one such lemma for each function of the inspection, up to `adds_inspect`;
  2. `IsAnchor` — the three reasons to report a node, said by positions alone;
  3. `call_unique` — THE CRUX: two declarations never report the same node.  Counted from the end of an
     anchor's position, the third number tells whether the anchor is the value of an entry or of an
     entry of an entry, and what is left in front is the position of the declaration;
  4. `anchors_of_load` — the anchors of a whole run are the nodes with such a reason, each once.
-/
import NegationLint.EnumRule
import NegationLint.Proofs.Position
import NegationLint.Proofs.Reading

namespace NegationLint

namespace EnumRule

/-! ## What a step adds -/

/-- The positions at which findings are anchored. -/
def anchored (found : List Finding) : List (List Nat) := found.map (·.anchor.position)

/-- The findings after a step that adds anchors of the sort `A`: every finding from before is there,
    every other one has such an anchor, there is one at each such anchor, and no two at the same. -/
structure Adds (A : Located → Prop) (before after : List Finding) : Prop where
  kept : before ⊆ after
  sound : ∀ f ∈ after, f ∈ before ∨ A f.anchor
  complete : ∀ a, A a → a.position ∈ anchored after
  nodup : (anchored before).Nodup → (anchored after).Nodup

theorem anchored_subset {before after : List Finding} (h : before ⊆ after) :
    anchored before ⊆ anchored after := List.map_subset _ h

namespace Adds

variable {A B : Located → Prop} {first second third : List Finding}

/-- Nothing added. -/
theorem refl (h : ∀ a, ¬ A a) (found : List Finding) : Adds A found found where
  kept := fun _ hf => hf
  sound := fun _ hf => Or.inl hf
  complete := fun a ha => absurd ha (h a)
  nodup := id

/-- One step after another adds what either adds. -/
theorem trans (h : Adds A first second) (h' : Adds B second third) :
    Adds (fun a => A a ∨ B a) first third where
  kept := fun _ hf => h'.kept (h.kept hf)
  sound := by
    intro f hf
    rcases h'.sound f hf with hf | hf
    · rcases h.sound f hf with hf | hf
      · exact Or.inl hf
      · exact Or.inr (Or.inl hf)
    · exact Or.inr (Or.inr hf)
  complete := by
    rintro a (ha | ha)
    · exact anchored_subset h'.kept (h.complete a ha)
    · exact h'.complete a ha
  nodup := fun distinct => h'.nodup (h.nodup distinct)

/-- The sort of anchor, said in another way. -/
theorem congr (h : Adds A first second) (same : ∀ a, A a ↔ B a) : Adds B first second where
  kept := h.kept
  sound := fun f hf => (h.sound f hf).imp_right (same _).1
  complete := fun a ha => h.complete a ((same a).2 ha)
  nodup := h.nodup

/-- A step for each element of a list adds what any of them adds. -/
theorem foldl {C : Located → Located → Prop} {step : List Finding → Located → List Finding}
    (steps : ∀ l found, Adds (C l) found (step found l)) (ls : List Located) (found : List Finding) :
    Adds (fun a => ∃ l ∈ ls, C l a) found (ls.foldl step found) := by
  induction ls generalizing found with
  | nil => exact refl (by simp) found
  | cons l ls ih =>
    refine ((steps l found).trans (ih (step found l))).congr fun a => ?_
    rw [List.exists_mem_cons_iff]

end Adds

/-! ## One inspection -/

/-- A finding is recorded unless there is one at its position. -/
theorem record_eq (severity : Text) (anchor : Located) (name : Text) (found : List Finding) :
    record severity anchor name found
      = if anchor.position ∈ anchored found then found else found ++ [⟨anchor, name, severity⟩] := by
  have known : found.any (·.anchor.position = anchor.position) = true
      ↔ anchor.position ∈ anchored found := by
    simp [anchored]
  rw [record]
  exact if_congr known rfl rfl

/-- Recording adds the anchor that it is given: if there is a finding at that position already, then
    that is the one, and otherwise the position is new. -/
theorem adds_record (severity : Text) (anchor : Located) (name : Text) (found : List Finding) :
    Adds (fun a => a = anchor) found (record severity anchor name found) := by
  rw [record_eq]
  by_cases known : anchor.position ∈ anchored found
  · rw [if_pos known]
    refine ⟨fun _ hf => hf, fun _ hf => Or.inl hf, ?_, id⟩
    rintro a rfl
    exact known
  · rw [if_neg known]
    have extended : anchored (found ++ [⟨anchor, name, severity⟩])
        = anchored found ++ [anchor.position] := List.map_append
    refine ⟨List.subset_append_left _ _, ?_, ?_, ?_⟩
    · intro f hf
      rcases List.mem_append.1 hf with hf | hf
      · exact Or.inl hf
      · obtain rfl := List.mem_singleton.1 hf
        exact Or.inr rfl
    · rintro a rfl
      rw [extended]
      exact List.mem_append_right _ List.mem_cons_self
    · intro distinct
      rw [extended]
      refine List.nodup_append.2 ⟨distinct, List.pairwise_singleton _ _, ?_⟩
      rintro p hp q hq rfl
      obtain rfl := List.mem_singleton.1 hq
      exact known hp

/-- The anchor is the value of an entry whose key is negated. -/
def NegatedEntry (l anchor : Located) : Prop :=
  ∃ key, entry? l = some (key, anchor) ∧ isNegated key.literalName = true

/-- The anchor is reported for an entry's value: it is the value of a negated entry of the hash that
    the value is, or it is the value itself, an array with a negated element. -/
inductive InValueSet (value : Located) : Located → Prop
  | hash {site : Site} {entries : List Node} {l anchor : Located}
    (node : value.node = .hash site entries)
    (listed : l ∈ Located.siblings value.position 0 entries) (negated : NegatedEntry l anchor) :
    InValueSet value anchor
  | array {site : Site} {elements : List Node} {e : Node} (node : value.node = .array site elements)
    (element : e ∈ elements) (negated : isNegated e.literalName = true) : InValueSet value value

/-- The anchor is reported for an entry of a declaration. -/
def EntryAnchor (l anchor : Located) : Prop :=
  NegatedEntry l anchor ∨ ∃ key value, entry? l = some (key, value) ∧ InValueSet value anchor

theorem adds_checkKey (severity : Text) (l : Located) (found : List Finding) :
    Adds (NegatedEntry l) found (checkKey severity found l) := by
  rw [checkKey]
  cases he : entry? l with
  | none =>
    refine Adds.refl ?_ found
    rintro a ⟨key, hk, -⟩
    rw [he] at hk
    cases hk
  | some entry =>
    obtain ⟨key, value⟩ := entry
    show Adds _ found (if isNegated key.literalName = true then _ else found)
    by_cases negated : isNegated key.literalName = true
    · rw [if_pos negated]
      refine (adds_record severity value key.literalName found).congr fun a => ?_
      constructor
      · rintro rfl
        exact ⟨key, he, negated⟩
      · rintro ⟨key', hk, -⟩
        rw [he] at hk
        exact (Prod.mk.inj (Option.some.inj hk)).2.symm
    · rw [if_neg negated]
      refine Adds.refl ?_ found
      rintro a ⟨key', hk, negated'⟩
      rw [he] at hk
      obtain ⟨rfl, -⟩ := Prod.mk.inj (Option.some.inj hk)
      exact negated negated'

theorem adds_checkValue (severity : Text) (value : Located) (found : List Finding) :
    Adds (InValueSet value) found (checkValue severity found value) := by
  rw [checkValue]
  cases hn : value.node with
  | hash site entries =>
    have inner := Adds.foldl (adds_checkKey severity) (Located.siblings value.position 0 entries) found
    refine inner.congr fun a => ?_
    constructor
    · rintro ⟨l, listed, negated⟩
      exact .hash hn listed negated
    · rintro (⟨node, listed, negated⟩ | ⟨node, -, -⟩)
      · obtain ⟨-, rfl⟩ := Node.hash.inj (hn.symm.trans node)
        exact ⟨_, listed, negated⟩
      · cases hn.symm.trans node
  | array site elements =>
    dsimp only
    cases hf : elements.find? (isNegated ·.literalName) with
    | some e =>
      have negated := List.find?_some hf
      refine (adds_record severity value e.literalName found).congr fun a => ?_
      constructor
      · rintro rfl
        exact .array hn (List.mem_of_find?_eq_some hf) negated
      · rintro (⟨node, -, -⟩ | -)
        · cases hn.symm.trans node
        · rfl
    | none =>
      refine Adds.refl ?_ found
      rintro a (⟨node, -, -⟩ | ⟨node, element, negated⟩)
      · cases hn.symm.trans node
      · obtain ⟨-, rfl⟩ := Node.array.inj (hn.symm.trans node)
        exact List.find?_eq_none.1 hf _ element negated
  | _ =>
    refine Adds.refl ?_ found
    rintro a (⟨node, -, -⟩ | ⟨node, -, -⟩) <;> cases hn.symm.trans node

theorem adds_checkEntry (severity : Text) (l : Located) (found : List Finding) :
    Adds (EntryAnchor l) found (checkEntry severity found l) := by
  rw [checkEntry]
  cases he : entry? l with
  | none =>
    refine Adds.refl ?_ found
    rintro a (⟨key, hk, -⟩ | ⟨key, value, hk, -⟩) <;> cases he.symm.trans hk
  | some entry =>
    obtain ⟨key, value⟩ := entry
    refine ((adds_checkKey severity l found).trans (adds_checkValue severity value _)).congr
      fun a => or_congr_right ?_
    constructor
    · intro h
      exact ⟨key, value, he, h⟩
    · rintro ⟨key', value', hk, h⟩
      obtain ⟨-, rfl⟩ := Prod.mk.inj (Option.some.inj (he.symm.trans hk))
      exact h

/-- **One inspection**: every anchor of one of the entries, each once. -/
theorem adds_inspect (severity : Text) (entries : List Located) :
    Adds (fun a => ∃ l ∈ entries, EntryAnchor l a) [] (inspect severity entries) :=
  Adds.foldl (adds_checkEntry severity) entries []

/-- The anchor is reported for a node, as a declaration. -/
def AnchoredBelow (l anchor : Located) : Prop :=
  ∃ entries, enumEntries? l = some entries ∧ ∃ e ∈ entries, EntryAnchor e anchor

theorem adds_findingsAt (severity : Text) (l : Located) :
    Adds (AnchoredBelow l) [] (findingsAt severity l) := by
  rw [findingsAt]
  cases he : enumEntries? l with
  | none =>
    refine Adds.refl ?_ []
    rintro a ⟨entries, h, -⟩
    cases he.symm.trans h
  | some entries =>
    refine (adds_inspect severity entries).congr fun a => ?_
    constructor
    · intro h
      exact ⟨entries, he, h⟩
    · rintro ⟨entries', h, ha⟩
      obtain rfl := Option.some.inj (he.symm.trans h)
      exact ha

/-! ## The reasons -/

/-- A node is reported for the declaration at `call`, whose hash has these entries, if it is

    * the value of an entry with a negated key;
    * the value of an entry with a negated key in a hash that is the value of an entry;
    * an array that is the value of an entry and has a negated element.

    What is negated depends on what nodes are called. -/
inductive ReportedFor (name : Node → Text) (call : List Nat) (entries : List Node) : Located → Prop
  | entry {i : Nat} {site : Site} {key value : Node}
    (listed : entries[i]? = some (.pair site key value))
    (negated : ("not_" : Text) <+: name key) :
    ReportedFor name call entries ⟨call ++ [0, i, 1], value⟩
  | inner {i k : Nat} {site hashSite innerSite : Site} {key innerKey value : Node} {inner : List Node}
    (listed : entries[i]? = some (.pair site key (.hash hashSite inner)))
    (within : inner[k]? = some (.pair innerSite innerKey value))
    (negated : ("not_" : Text) <+: name innerKey) :
    ReportedFor name call entries ⟨call ++ [0, i, 1, k, 1], value⟩
  | list {i : Nat} {site arraySite : Site} {key e : Node} {elements : List Node}
    (listed : entries[i]? = some (.pair site key (.array arraySite elements))) (element : e ∈ elements)
    (negated : ("not_" : Text) <+: name e) :
    ReportedFor name call entries ⟨call ++ [0, i, 1], .array arraySite elements⟩

/-- A node of a tree is an anchor if it is reported for some declaration in the tree: a call of `enum`
    without receiver whose only argument is a hash. -/
def IsAnchor (name : Node → Text) (root : Node) (anchor : Located) : Prop :=
  ∃ call site hashSite entries, root.at? call = some (.send site none "enum" [.hash hashSite entries])
    ∧ ReportedFor name call entries anchor

theorem isNegated_iff {name : Text} : isNegated name = true ↔ ("not_" : Text) <+: name :=
  List.isPrefixOf_iff_prefix

theorem enumEntries?_eq_some_iff {l : Located} {ls : List Located} :
    enumEntries? l = some ls ↔ ∃ site hashSite entries,
      l.node = .send site none "enum" [.hash hashSite entries]
      ∧ ls = Located.siblings (l.position ++ [0]) 0 entries := by
  constructor
  · intro h
    rw [enumEntries?] at h
    split at h
    · rename_i site method hashSite entries hn
      by_cases hm : method = "enum"
      · rw [if_pos hm] at h
        exact ⟨site, hashSite, entries, hm ▸ hn, (Option.some.inj h).symm⟩
      · rw [if_neg hm] at h
        cases h
    · cases h
  · rintro ⟨site, hashSite, entries, hn, rfl⟩
    rw [enumEntries?, hn]
    show (if ("enum" : Text) = "enum" then some _ else none) = _
    exact if_pos rfl

theorem entry?_eq_some_iff {l value : Located} {key : Node} :
    entry? l = some (key, value) ↔ ∃ site n, l.node = .pair site key n
      ∧ value = ⟨l.position ++ [1], n⟩ := by
  constructor
  · intro h
    unfold entry? at h
    split at h
    · rename_i site key' n hn
      obtain ⟨rfl, rfl⟩ := Prod.mk.inj (Option.some.inj h)
      exact ⟨site, n, hn, rfl⟩
    · cases h
  · rintro ⟨site, n, hn, rfl⟩
    unfold entry?
    rw [hn]

theorem reportedFor_of_anchoredBelow {l anchor : Located} (h : AnchoredBelow l anchor) :
    ∃ site hashSite entries, l.node = .send site none "enum" [.hash hashSite entries]
      ∧ ReportedFor Node.literalName l.position entries anchor := by
  obtain ⟨ls, declared, e, he, reported⟩ := h
  obtain ⟨site, hashSite, entries, hn, rfl⟩ := enumEntries?_eq_some_iff.1 declared
  obtain ⟨i, n, listed, rfl⟩ := Located.mem_siblings.1 he
  refine ⟨site, hashSite, entries, hn, ?_⟩
  rcases reported with ⟨key, hk, negated⟩ | ⟨key, value, hk, within⟩
  · obtain ⟨pairSite, v, rfl, rfl⟩ := entry?_eq_some_iff.1 hk
    have : ReportedFor Node.literalName l.position entries ⟨l.position ++ [0, i, 1], v⟩ :=
      .entry listed (isNegated_iff.1 negated)
    simpa using this
  · obtain ⟨pairSite, v, rfl, rfl⟩ := entry?_eq_some_iff.1 hk
    rcases within with ⟨rfl, hm, key', hk', negated⟩ | ⟨rfl, element, negated⟩
    · obtain ⟨k, m, within, rfl⟩ := Located.mem_siblings.1 hm
      obtain ⟨innerSite, w, rfl, rfl⟩ := entry?_eq_some_iff.1 hk'
      have : ReportedFor Node.literalName l.position entries ⟨l.position ++ [0, i, 1, k, 1], w⟩ :=
        .inner listed within (isNegated_iff.1 negated)
      simpa using this
    · have : ReportedFor Node.literalName l.position entries ⟨l.position ++ [0, i, 1], .array _ _⟩ :=
        .list listed element (isNegated_iff.1 negated)
      simpa using this

theorem anchoredBelow_of_reportedFor {l anchor : Located} {site hashSite : Site} {entries : List Node}
    (hn : l.node = .send site none "enum" [.hash hashSite entries])
    (reported : ReportedFor Node.literalName l.position entries anchor) : AnchoredBelow l anchor := by
  refine ⟨_, enumEntries?_eq_some_iff.2 ⟨site, hashSite, entries, hn, rfl⟩, ?_⟩
  -- the entry itself, and with it the value that stands for all three reasons
  have entry {i : Nat} {pairSite : Site} {key value : Node}
      (listed : entries[i]? = some (.pair pairSite key value)) :
      ∃ e ∈ Located.siblings (l.position ++ [0]) 0 entries,
        entry? e = some (key, ⟨l.position ++ [0, i, 1], value⟩) := by
    refine ⟨_, Located.mem_siblings.2 ⟨i, _, listed, rfl⟩, ?_⟩
    exact entry?_eq_some_iff.2 ⟨pairSite, value, rfl, by simp⟩
  cases reported with
  | entry listed negated =>
    obtain ⟨e, he, hk⟩ := entry listed
    exact ⟨e, he, Or.inl ⟨_, hk, isNegated_iff.2 negated⟩⟩
  | @inner i k _ _ innerSite _ innerKey value _ listed within negated =>
    obtain ⟨e, he, hk⟩ := entry listed
    refine ⟨e, he, Or.inr ⟨_, _, hk, .hash rfl (Located.mem_siblings.2 ⟨k, _, within, rfl⟩) ?_⟩⟩
    exact ⟨innerKey, entry?_eq_some_iff.2 ⟨innerSite, value, rfl, by simp⟩, isNegated_iff.2 negated⟩
  | list listed element negated =>
    obtain ⟨e, he, hk⟩ := entry listed
    exact ⟨e, he, Or.inr ⟨_, _, hk, .array rfl element (isNegated_iff.2 negated)⟩⟩

/-! ## No two declarations report the same node -/

/-- The position of what is reported for a declaration: the declaration's own, and behind it the way
    to the value of an entry, or to the value of an entry of an entry. -/
theorem position_of_reportedFor {name : Node → Text} {call : List Nat} {entries : List Node}
    {anchor : Located} (h : ReportedFor name call entries anchor) :
    ∃ i, anchor.position = call ++ [0, i, 1] ∨ ∃ k, anchor.position = call ++ [0, i, 1, k, 1] := by
  cases h with
  | @entry i => exact ⟨i, Or.inl rfl⟩
  | @inner i k => exact ⟨i, Or.inr ⟨k, rfl⟩⟩
  | @list i => exact ⟨i, Or.inl rfl⟩

/-- **The crux.**  A node is reported for one declaration at most.  The value of an entry has 0 as the
    third number from the end of its position, the value of an entry of an entry has 1 there; and two
    ways of equal length can be taken off the end. -/
theorem call_unique {name : Node → Text} {p q : List Nat} {entries entries' : List Node}
    {anchor anchor' : Located} (h : ReportedFor name p entries anchor)
    (h' : ReportedFor name q entries' anchor') (same : anchor.position = anchor'.position) : p = q := by
  have apart {p q : List Nat} {i j k : Nat} : p ++ [0, i, 1] ≠ q ++ [0, j, 1, k, 1] := by
    intro eq
    rw [show q ++ [0, j, 1, k, 1] = (q ++ [0, j]) ++ [1, k, 1] by simp] at eq
    have := (List.append_inj' eq rfl).2
    cases this
  obtain ⟨i, hi | ⟨k, hi⟩⟩ := position_of_reportedFor h <;>
    obtain ⟨j, hj | ⟨m, hj⟩⟩ := position_of_reportedFor h' <;> rw [hi, hj] at same
  · exact (List.append_inj' same rfl).1
  · exact absurd same apart
  · exact absurd same.symm apart
  · exact (List.append_inj' same rfl).1

/-! ## The whole run -/

theorem anchored_flatMap (severity : Text) (ls : List Located) :
    anchored (ls.flatMap (findingsAt severity))
      = ls.flatMap fun l => anchored (findingsAt severity l) :=
  List.map_flatMap

/-- No node has two findings in a walk through a tree. -/
theorem nodup_anchored_walk (severity : Text) (root : Node) :
    (anchored (root.walk.flatMap (findingsAt severity))).Nodup := by
  rw [anchored_flatMap]
  refine List.pairwise_flatMap.2 ⟨?_, ?_⟩
  -- inside one inspection: it starts from no finding and records no position twice
  · intro l _
    exact (adds_findingsAt severity l).nodup .nil
  -- across two: a common anchor gives both declarations the same position
  · refine root.pairwise_walk.imp ?_
    intro a b before p hp q hq same
    have reported {l : Located} {p : List Nat} (hp : p ∈ anchored (findingsAt severity l)) :
        ∃ entries anchor, anchor.position = p
          ∧ ReportedFor Node.literalName l.position entries anchor := by
      obtain ⟨f, hf, rfl⟩ := List.mem_map.1 hp
      obtain hf | below := (adds_findingsAt severity l).sound f hf
      · cases hf
      · obtain ⟨_, _, entries, _, ha⟩ := reportedFor_of_anchoredBelow below
        exact ⟨entries, f.anchor, rfl, ha⟩
    obtain ⟨_, _, rfl, ha⟩ := reported hp
    obtain ⟨_, _, rfl, hb⟩ := reported hq
    rw [call_unique ha hb same] at before
    exact List.lt_irrefl _ before

/-- What is reported stands in the tree, where its position says. -/
theorem IsAnchor.at? {name : Node → Text} {root : Node} {v : Located} (h : IsAnchor name root v) :
    root.at? v.position = some v.node := by
  obtain ⟨call, site, hashSite, entries, hc, reported⟩ := h
  cases reported with
  | entry listed =>
    exact Node.at?_append_eq_some_iff.2 ⟨_, hc, by simp [Node.at?, Node.children, listed]⟩
  | inner listed within =>
    exact Node.at?_append_eq_some_iff.2 ⟨_, hc, by simp [Node.at?, Node.children, listed, within]⟩
  | list listed =>
    exact Node.at?_append_eq_some_iff.2 ⟨_, hc, by simp [Node.at?, Node.children, listed]⟩

theorem isAnchor_of_mem_walk {severity : Text} {root : Node} {v : Located}
    (h : v ∈ (root.walk.flatMap (findingsAt severity)).map (·.anchor)) :
    IsAnchor Node.literalName root v := by
  obtain ⟨f, hf, rfl⟩ := List.mem_map.1 h
  obtain ⟨l, hl, hf⟩ := List.mem_flatMap.1 hf
  obtain hf | below := (adds_findingsAt severity l).sound f hf
  · cases hf
  · obtain ⟨site, hashSite, entries, hn, reported⟩ := reportedFor_of_anchoredBelow below
    exact ⟨l.position, site, hashSite, entries, hn ▸ Node.mem_walk.1 hl, reported⟩

/-- The anchors of a walk through a tree are the nodes with a reason to be reported. -/
theorem mem_anchors_walk {severity : Text} {root : Node} {v : Located} :
    v ∈ (root.walk.flatMap (findingsAt severity)).map (·.anchor)
      ↔ IsAnchor Node.literalName root v := by
  constructor
  · exact isAnchor_of_mem_walk
  · intro h
    have place := h.at?
    obtain ⟨call, site, hashSite, entries, hc, reported⟩ := h
    let declaration : Located := ⟨call, .send site none "enum" [.hash hashSite entries]⟩
    have walked : declaration ∈ root.walk := Node.mem_walk.2 hc
    have below : AnchoredBelow declaration v := anchoredBelow_of_reportedFor rfl reported
    obtain ⟨f, hf, hp⟩ := List.mem_map.1 ((adds_findingsAt severity declaration).complete v below)
    have found : f.anchor ∈ (root.walk.flatMap (findingsAt severity)).map (·.anchor) :=
      List.mem_map_of_mem (List.mem_flatMap.2 ⟨declaration, walked, hf⟩)
    -- the finding stands at the node's position, so it is at the node
    have same : f.anchor = v :=
      Node.eq_of_position_eq (isAnchor_of_mem_walk found).at? place hp
    exact same ▸ found

/-! ## What nodes are called -/

/-- Two ways to call nodes that agree on every node of a tree give it the same anchors. -/
theorem IsAnchor.imp {name name' : Node → Text} {root : Node} {v : Located}
    (agree : ∀ p n, root.at? p = some n → name n = name' n) (h : IsAnchor name root v) :
    IsAnchor name' root v := by
  obtain ⟨call, site, hashSite, entries, hc, reported⟩ := h
  have called {q : List Nat} {n : Node}
      (hq : (Node.send site none "enum" [.hash hashSite entries]).at? q = some n) : name n = name' n :=
    agree (call ++ q) n (Node.at?_append_eq_some_iff.2 ⟨_, hc, hq⟩)
  refine ⟨call, site, hashSite, entries, hc, ?_⟩
  cases reported with
  | @entry i _ key value listed negated =>
    have : name key = name' key := called (q := [0, i, 0]) (by simp [Node.at?, Node.children, listed])
    exact .entry listed (this ▸ negated)
  | @inner i k _ _ _ _ key _ _ listed within negated =>
    have : name key = name' key :=
      called (q := [0, i, 1, k, 0]) (by simp [Node.at?, Node.children, listed, within])
    exact .inner listed within (this ▸ negated)
  | @list i _ _ _ e elements listed element negated =>
    obtain ⟨k, hk⟩ := List.mem_iff_getElem?.1 element
    have : name e = name' e :=
      called (q := [0, i, 1, k]) (by simp [Node.at?, Node.children, listed, hk])
    exact .list listed element (this ▸ negated)

/-- What a node is called in a source: the text of a symbol or a string, and the piece of the source
    that any other node covers. -/
def nameIn (source : Text) : Node → Text
  | .sym _ value => value
  | .str _ value => value
  | n => source.slice n.span.begin n.span.stop

theorem literalName_eq_nameIn {source : Text} {n : Node}
    (h : n.source = source.slice n.span.begin n.span.stop) : n.literalName = nameIn source n := by
  cases n <;> first | rfl | exact h

end EnumRule

namespace Document

/-- The source text of every node of a tree that builds is the piece between its offsets. -/
theorem source_eq_of_mem_walk {source : Text} {root : Json} {n : Node}
    (h : build (Buffer.ofText source) root = .ok n) {l : Located} (hl : l ∈ n.walk) :
    l.node.source = source.slice l.node.span.begin l.node.span.stop := by
  rw [n.walk_eq] at hl
  have read := (forall₂_walkAt source root h []).flip
  have pieces := read.imp fun (l : Located) v (hv : Represents source v l.node) =>
    And.intro hv.source_eq hv
  exact ((List.forall₂_and_left _ _).1 pieces).1 l hl

/-- **Where a whole run reports.**  Take every node of a document that loads, in the order of the walk,
    and the findings at each.  No two of them all are anchored at the same position, and the anchors
    are just the nodes with one of the three reasons to be reported. -/
theorem anchors_of_load {settings : Settings} {raw : Json} {d : Document}
    (h : load settings raw = .ok d) (severity : Text) :
    ((d.walk.flatMap (EnumRule.findingsAt severity)).map (·.anchor.position)).Nodup
    ∧ ∀ v : Located, v ∈ (d.walk.flatMap (EnumRule.findingsAt severity)).map (·.anchor)
      ↔ ∃ root, d.root = some root ∧ EnumRule.IsAnchor (EnumRule.nameIn d.source) root v := by
  obtain ⟨source, raw', -, hb, ⟨-, hn⟩ | ⟨n, hn, built⟩⟩ := load_eq_ok h
  · rw [walk_of_root_eq_none hn]
    refine ⟨.nil, fun v => ⟨nofun, ?_⟩⟩
    rintro ⟨root, hr, -⟩
    cases hn.symm.trans hr
  · -- the rule reads a node's own text, which is the piece of the source that it covers
    have called (p : List Nat) (m : Node) (hm : n.at? p = some m) :
        m.literalName = EnumRule.nameIn d.source m := by
      have walked : (⟨p, m⟩ : Located) ∈ n.walk := Node.mem_walk.2 hm
      rw [source_of_buffer_eq hb]
      exact EnumRule.literalName_eq_nameIn (source_eq_of_mem_walk built walked)
    rw [walk_of_root_eq_some hn]
    refine ⟨EnumRule.nodup_anchored_walk severity n, fun v => ?_⟩
    rw [EnumRule.mem_anchors_walk]
    constructor
    · intro anchor
      exact ⟨n, hn, anchor.imp called⟩
    · rintro ⟨root, hr, anchor⟩
      obtain rfl := Option.some.inj (hn.symm.trans hr)
      exact anchor.imp fun p m hm => (called p m hm).symm

/-- A declaration that is the value of an entry of a hash of another declaration.  What it is the value
    of is negated, and so is the element of its own list. -/
def nestedDeclarations : Json := .obj [("source", .str "enum a: \x7b not_b: enum(c: [:not_d]) \x7d"),
  ("ast", Example.node "send" 0 36 [.null, .str "enum", Example.node "hash" 5 36 [
    Example.node "pair" 5 36 [Example.symbol 5 6 "a", Example.node "hash" 8 36 [
      Example.node "pair" 10 34 [Example.symbol 10 15 "not_b",
        Example.node "send" 17 34 [.null, .str "enum", Example.node "hash" 22 33 [
          Example.node "pair" 22 33 [Example.symbol 22 23 "c",
            Example.node "array" 25 33 [Example.symbol 26 32 "not_d"]]]]]]]]])]

/-- The inner declaration is reported for the outer one, and its list for itself. -/
theorem anchors_of_load_nestedDeclarations :
    ∃ d, load .standard nestedDeclarations = .ok d
      ∧ (d.walk.flatMap (EnumRule.findingsAt "warning")).map (·.anchor.position)
        = [[0, 0, 1, 0, 1], [0, 0, 1, 0, 1, 0, 0, 1]]
      ∧ ((d.walk.flatMap (EnumRule.findingsAt "warning")).map (·.anchor.position)).Nodup
      ∧ ∀ v : Located, v ∈ (d.walk.flatMap (EnumRule.findingsAt "warning")).map (·.anchor)
        ↔ ∃ root, d.root = some root ∧ EnumRule.IsAnchor (EnumRule.nameIn d.source) root v := by
  have loads : ∃ d, load .standard nestedDeclarations = .ok d
      ∧ (d.walk.flatMap (EnumRule.findingsAt "warning")).map (·.anchor.position)
        = [[0, 0, 1, 0, 1], [0, 0, 1, 0, 1, 0, 0, 1]] := ⟨_, rfl, by decide⟩
  obtain ⟨d, hd, positions⟩ := loads
  exact ⟨d, hd, positions, anchors_of_load hd "warning"⟩

end Document

end NegationLint
