/-
  Where the text of a report comes from.

  A report shows names and pieces of a source, a path and a corrected source.  Every code point of them is ASCII
  or stands in a string of the request:

  1. `literalName_of_mem_walk` — a node is called by its piece of the source or by a string of the raw tree;
  2. `named_of_mem_findings` — a finding is called as a node of the tree is;
  3. `drawn_indexedHash`, `mem_apply` — a correction has the names and the pieces of elements in it, and a
     corrected source has the source and the corrections;
  4. `drawn_of_report` — the whole report, put together from these.
-/
import NegationLint.Proofs.Alphabet
import NegationLint.Proofs.Inspection
import NegationLint.Proofs.ReportContract
import NegationLint.Proofs.RoundTrip
import NegationLint.Proofs.Substitution

namespace NegationLint

namespace Json

/-! ## The texts of a value -/

theorem forall_mem_itemTexts {P : Text → Prop} {vs : List Json} :
    (∀ t ∈ itemTexts vs, P t) ↔ ∀ v ∈ vs, ∀ t ∈ v.texts, P t := by
  induction vs with
  | nil => exact ⟨fun _ => nofun, fun _ => nofun⟩
  | cons v vs ih => rw [itemTexts, List.forall_mem_append, ih, List.forall_mem_cons]

theorem forall_mem_fieldTexts {P : Text → Prop} {fields : List (Text × Json)} :
    (∀ t ∈ fieldTexts fields, P t) ↔ ∀ f ∈ fields, P f.1 ∧ ∀ t ∈ f.2.texts, P t := by
  induction fields with
  | nil => exact ⟨fun _ => nofun, fun _ => nofun⟩
  | cons f fields ih =>
    rw [fieldTexts, List.forall_mem_cons, List.forall_mem_append, ih, List.forall_mem_cons, and_assoc]

theorem mem_of_lookup {key : Text} {v : Json} {fields : List (Text × Json)}
    (h : lookup key fields = some v) : (key, v) ∈ fields := by
  induction fields with
  | nil => cases h
  | cons f fields ih =>
    obtain ⟨k, w⟩ := f
    rw [lookup] at h
    split at h
    · rename_i same
      subst same
      obtain rfl := Option.some.inj h
      exact List.mem_cons_self
    · exact List.mem_cons_of_mem _ (ih h)

/-- A field that is set brings its key and the texts of its value. -/
theorem mem_fieldTexts_put {key t : Text} {v : Json} {fields : List (Text × Json)}
    (h : t ∈ fieldTexts (put key v fields)) : t = key ∨ t ∈ v.texts ∨ t ∈ fieldTexts fields := by
  induction fields with
  | nil =>
    rw [put, fieldTexts, fieldTexts, List.append_nil, List.mem_cons] at h
    exact h.imp_right Or.inl
  | cons f fields ih =>
    obtain ⟨k, w⟩ := f
    rw [put] at h
    split at h
    · rw [fieldTexts, List.mem_cons, List.mem_append] at h
      rw [fieldTexts, List.mem_cons, List.mem_append]
      tauto
    · rw [fieldTexts, List.mem_cons, List.mem_append] at h
      rw [fieldTexts, List.mem_cons, List.mem_append]
      rcases h with here | here | rest
      · exact Or.inr (Or.inr (Or.inl here))
      · exact Or.inr (Or.inr (Or.inr (Or.inl here)))
      · exact (ih rest).imp_right fun h => h.imp_right fun h => Or.inr (Or.inr h)

/-- The texts of a field's value are texts of the object. -/
theorem texts_subset_of_get? {key : Text} {v w : Json} (h : v.get? key = some w) : w.texts ⊆ v.texts := by
  cases v with
  | obj fields =>
    have listed := (forall_mem_fieldTexts (P := (· ∈ fieldTexts fields))).1 fun _ ht => ht
    exact fun t ht => (listed _ (mem_of_lookup h)).2 t ht
  | _ => cases h

theorem texts_subset_of_mem_childItems {v c : Json} (h : c ∈ v.childItems) : c.texts ⊆ v.texts := by
  obtain ⟨fields, rfl, children⟩ := exists_lookup_of_mem_childItems h
  have listed : (Json.arr (Json.obj fields).childItems).texts ⊆ (Json.obj fields).texts :=
    texts_subset_of_get? children
  have each := (forall_mem_itemTexts (P := (· ∈ itemTexts (Json.obj fields).childItems))).1 fun _ ht => ht
  exact fun t ht => listed (each c h t ht)

end Json

open Json (Drawn)

/-- What is drawn from texts that can be encoded can be encoded. -/
theorem isEncodable_of_drawn {ts : List Text} {t : Text} (h : ∀ c ∈ t, Drawn ts c)
    (encodable : ∀ u ∈ ts, u.isEncodable = true) : t.isEncodable = true := by
  refine List.all_eq_true.2 fun c hc => ?_
  rcases h c hc with ascii | ⟨u, hu, member⟩
  · rw [CodePoint.isSurrogate, decide_eq_false (by omega)]
    rfl
  · exact List.all_eq_true.1 (encodable u hu) c member

/-! ## What nodes are called -/

/-- What the node is called and what it shows is drawn from these texts. -/
def DrawnNode (ts : List Text) (n : Node) : Prop :=
  (∀ c ∈ n.literalName, Drawn ts c) ∧ ∀ c ∈ n.source, Drawn ts c

namespace Document

/-- A symbol or a string has its text from the only child of the raw node. -/
theorem str_mem_children {tag : Text} {site : Site} {children : List Json} {n : Node}
    {f : Json → Except LoadError Node} (form : Json.HasForm (NodeKind.ofTag tag) children)
    (kind : n.kind = NodeKind.ofTag tag)
    (h : assemble tag site (children.map fun c => (c, f c)) = .ok n) :
    n.literalName = n.source ∨ .str n.literalName ∈ children := by
  unfold assemble at h
  rw [← kind] at form h
  cases n with
  | sym =>
    cases form
    cases h
    exact Or.inr List.mem_cons_self
  | str =>
    cases form
    cases h
    exact Or.inr List.mem_cons_self
  | _ => exact Or.inl rfl

theorem literalName_of_build {b : Buffer} {v : Json} {n : Node} (h : build b v = .ok n) :
    n.literalName = n.source ∨ n.literalName ∈ v.texts := by
  obtain ⟨fields, r, below, rfl, spelled, own, -, assembled⟩ := build_eq_ok h
  obtain ⟨ordered, inside, integral, form⟩ := Json.nodeFault?_eq_none_iff.1 own
  have made := build_of_spells b spelled
  rw [h, if_neg (by omega), integral, if_neg (by simp)] at made
  rcases str_mem_children (Json.hasForm_of_formFault?_eq_none form) assembled.kind_eq made.symm with
    same | child
  · exact Or.inl same
  · rw [← Json.childItems_eq_of_lookup spelled.children] at child
    exact Or.inr (Json.texts_subset_of_mem_childItems child List.mem_cons_self)

/-- What stands below a node that builds is called by its source or by a text of the raw tree.  By
    induction on the raw tree. -/
theorem literalName_of_mem_walkAt {b : Buffer} (v : Json) {n : Node} (h : build b v = .ok n)
    (position : List Nat) {l : Located} (hl : l ∈ n.walkAt position) :
    l.node.literalName = l.node.source ∨ l.node.literalName ∈ v.texts := by
  induction v using Json.childInduction generalizing n position with
  | step v ih =>
    obtain ⟨fields, r, below, rfl, -, -, built, assembled⟩ := build_eq_ok h
    rw [Node.walkAt_eq, Node.walkAll_eq, List.mem_cons, List.mem_flatMap] at hl
    rcases hl with rfl | ⟨child, hchild, hl⟩
    · exact literalName_of_build h
    · rw [assembled.children_eq] at hchild
      obtain ⟨i, k, hk, rfl⟩ := Located.mem_siblings.1 hchild
      obtain ⟨c, hc, hck⟩ := exists_mem_of_forall₂ built (List.mem_of_getElem? hk)
      have item := Json.mem_childItems_of_mem_rawChildren hc
      exact (ih c item hck _ hl).imp_right fun listed => Json.texts_subset_of_mem_childItems item listed

section Loaded

variable {settings : Settings} {raw : Json} {d : Document}

/-- A node of a document is called by its source or by a text of the document. -/
theorem literalName_of_mem_walk (h : load settings raw = .ok d) {l : Located} (hl : l ∈ d.walk) :
    l.node.literalName = l.node.source ∨ l.node.literalName ∈ raw.texts := by
  obtain ⟨source, root, env, -, ⟨-, hn⟩ | ⟨n, hn, built⟩⟩ := load_eq_ok h
  · rw [walk_of_root_eq_none hn] at hl
    cases hl
  · rw [walk_of_root_eq_some hn, n.walk_eq] at hl
    refine (literalName_of_mem_walkAt root built [] hl).imp_right fun listed => ?_
    exact Json.texts_subset_of_get? env.root_eq listed

theorem drawn_source (h : load settings raw = .ok d) : ∀ c ∈ d.source, Drawn raw.texts c := by
  obtain ⟨source, root, env, hb, -⟩ := load_eq_ok h
  have listed : source ∈ raw.texts := Json.texts_subset_of_get? env.source_eq List.mem_cons_self
  rw [source_of_buffer_eq hb]
  exact fun c hc => Or.inr ⟨source, listed, hc⟩

/-- What a node is called and what it shows is drawn from the texts of the document. -/
theorem drawn_of_mem_walk (h : load settings raw = .ok d) {l : Located} (hl : l ∈ d.walk) :
    DrawnNode raw.texts l.node := by
  have piece : ∀ c ∈ l.node.source, c ∈ d.source := by
    obtain ⟨text, root, -, hb, ⟨-, hn⟩ | ⟨n, hn, built⟩⟩ := load_eq_ok h
    · rw [walk_of_root_eq_none hn] at hl
      cases hl
    · rw [walk_of_root_eq_some hn] at hl
      rw [source_eq_of_mem_walk built hl, source_of_buffer_eq hb]
      exact fun c hc => List.mem_of_mem_drop (List.mem_of_mem_take hc)
  have source : ∀ c ∈ l.node.source, Drawn raw.texts c := fun c hc => drawn_source h c (piece c hc)
  refine ⟨?_, source⟩
  rcases literalName_of_mem_walk h hl with same | listed
  · rw [same]
    exact source
  · exact fun c hc => Or.inr ⟨_, listed, hc⟩

end Loaded

/-! ## What findings are called -/

/-- The node stands somewhere in the tree. -/
def Has (d : Document) (n : Node) : Prop := ∃ l ∈ d.walk, l.node = n

theorem Has.child {d : Document} {n c : Node} (h : d.Has n) (hc : c ∈ n.children) : d.Has c := by
  obtain ⟨l, hl, rfl⟩ := h
  obtain ⟨i, hi⟩ := List.mem_iff_getElem?.1 hc
  cases hr : d.root with
  | none =>
    rw [walk_of_root_eq_none hr] at hl
    cases hl
  | some root =>
    rw [walk_of_root_eq_some hr] at hl
    let child : Located := ⟨l.position ++ [0 + i], c⟩
    have listed : child ∈ l.children := Located.mem_siblings.2 ⟨i, c, hi, rfl⟩
    refine ⟨child, ?_, rfl⟩
    rw [walk_of_root_eq_some hr]
    exact Node.mem_walk_of_mem_children hl listed

end Document

namespace EnumRule

section Names

variable {d : Document} {severity : Text} {l value : Located} {f : Finding}

/-- The finding is called as a node of the tree is. -/
def Named (d : Document) (f : Finding) : Prop := ∃ n, d.Has n ∧ f.enumName = n.literalName

theorem named_of_mem_keyFindings (here : d.Has l.node) (hf : f ∈ keyFindings severity l) : Named d f := by
  cases he : entry? l with
  | none =>
    rw [keyFindings_of_none he] at hf
    cases hf
  | some entry =>
    obtain ⟨key, value⟩ := entry
    rw [keyFindings_of_entry he] at hf
    obtain ⟨site, v, hn, -⟩ := entry?_eq_some_iff.1 he
    rw [hn] at here
    split at hf
    · obtain rfl := List.mem_singleton.1 hf
      exact ⟨key, here.child List.mem_cons_self, rfl⟩
    · cases hf

theorem named_of_mem_valueFindings (here : d.Has value.node) {reported : Bool}
    (hf : f ∈ valueFindings severity reported value) : Named d f := by
  rw [valueFindings] at hf
  split at hf
  · rename_i site entries hn
    obtain ⟨inner, hl, hf⟩ := List.mem_flatMap.1 hf
    obtain ⟨i, n, listed, rfl⟩ := Located.mem_siblings.1 hl
    rw [hn] at here
    exact named_of_mem_keyFindings (here.child (List.mem_of_getElem? listed)) hf
  · rename_i site elements hn
    split at hf
    · cases hf
    · obtain ⟨e, he, rfl⟩ := List.mem_map.1 hf
      rw [hn] at here
      exact ⟨e, here.child (List.mem_of_find?_eq_some (Option.mem_toList.1 he)), rfl⟩
  · cases hf

theorem named_of_mem_entryFindings (here : d.Has l.node) (hf : f ∈ entryFindings severity l) : Named d f := by
  cases he : entry? l with
  | none =>
    rw [entryFindings_of_none he] at hf
    cases hf
  | some entry =>
    obtain ⟨key, value⟩ := entry
    rw [entryFindings_of_entry he] at hf
    rcases List.mem_append.1 hf with hf | hf
    · exact named_of_mem_keyFindings here hf
    · obtain ⟨site, v, hn, rfl⟩ := entry?_eq_some_iff.1 he
      rw [hn] at here
      exact named_of_mem_valueFindings (here.child (List.mem_cons_of_mem _ List.mem_cons_self)) hf

theorem named_of_mem_findingsAt (here : d.Has l.node) (hf : f ∈ findingsAt severity l) : Named d f := by
  rw [findingsAt_eq] at hf
  obtain ⟨entry, he, hf⟩ := List.mem_flatMap.1 hf
  cases declared : enumEntries? l with
  | none =>
    rw [declared] at he
    cases he
  | some ls =>
    rw [declared] at he
    obtain ⟨site, hashSite, entries, hn, rfl⟩ := enumEntries?_eq_some_iff.1 declared
    obtain ⟨i, n, listed, rfl⟩ := Located.mem_siblings.1 he
    rw [hn] at here
    have hash : d.Has (.hash hashSite entries) := here.child List.mem_cons_self
    exact named_of_mem_entryFindings (hash.child (List.mem_of_getElem? listed)) hf

end Names

end EnumRule

/-- A finding of a run is called as a node of the tree is. -/
theorem Lint.named_of_mem_findings {settings : Settings} {d : Document} {f : Finding}
    (hf : f ∈ findings settings d) : EnumRule.Named d f := by
  rw [findings_eq] at hf
  split at hf
  · obtain ⟨l, hl, hf⟩ := List.mem_flatMap.1 hf
    exact EnumRule.named_of_mem_findingsAt ⟨l, hl, rfl⟩ hf
  · cases hf

/-! ## What corrections are made of -/

namespace EnumRule

variable {ts : List Text}

theorem ascii_of_isPlain {c : CodePoint} (h : c.isPlain = true) : c.val < 0x80 := by
  have := CodePoint.isPlain_iff.1 h
  omega

theorem drawn_renderElement {n : Node} (h : DrawnNode ts n) : ∀ c ∈ renderElement n, Drawn ts c := by
  obtain ⟨name, piece⟩ := h
  cases n with
  | str site value => exact fun c hc => Or.inl (ascii_of_isPlain (Ruby.isPlain_of_mem_dump hc))
  | sym site value =>
    refine List.forall_mem_cons.2 ⟨Or.inl (by decide), ?_⟩
    split
    · exact name
    · intro c hc
      rcases Ruby.plain_or_kept _ value hc with plain | ⟨kept, -⟩
      · exact Or.inl (ascii_of_isPlain plain)
      · exact name c kept
  | _ => exact piece

theorem drawn_renderEntries {ns : List Node} (h : ∀ n ∈ ns, DrawnNode ts n) (first : Nat) :
    ∀ c ∈ renderEntries first ns, Drawn ts c := by
  have ascii {t : Text} (ht : ∀ c ∈ t, c.val < 0x80) : ∀ c ∈ t, Drawn ts c :=
    fun c hc => Or.inl (ht c hc)
  have arrow : ∀ c ∈ (" => " : Text), Drawn ts c := ascii (by decide)
  have comma : ∀ c ∈ (", " : Text), Drawn ts c := ascii (by decide)
  have index (k : Nat) : ∀ c ∈ Text.ofNat k, Drawn ts c := ascii fun c hc => (Json.ascii_ofInt k c hc).2
  induction ns generalizing first with
  | nil => exact fun _ hc => nomatch hc
  | cons n ns ih =>
    obtain ⟨here, rest⟩ := List.forall_mem_cons.1 h
    have element := drawn_renderElement here
    cases ns with
    | nil =>
      rw [renderEntries]
      exact List.forall_mem_append.2 ⟨element, List.forall_mem_append.2 ⟨arrow, index first⟩⟩
    | cons m ns =>
      rw [renderEntries_cons_cons]
      have more := List.forall_mem_append.2 ⟨comma, ih rest (first + 1)⟩
      refine List.forall_mem_append.2 ⟨element, List.forall_mem_append.2 ⟨arrow, ?_⟩⟩
      exact List.forall_mem_append.2 ⟨index first, more⟩

theorem drawn_indexedHash {elements : List Node} (h : ∀ n ∈ elements, DrawnNode ts n) :
    ∀ c ∈ indexedHash elements, Drawn ts c := by
  have brace {c : CodePoint} (hc : c.val < 0x80) : Drawn ts c := Or.inl hc
  refine List.forall_mem_cons.2 ⟨brace (by decide), ?_⟩
  exact List.forall_mem_append.2
    ⟨drawn_renderEntries h 0, List.forall_mem_singleton.2 (brace (by decide))⟩

end EnumRule

namespace CorrectionQueue

/-- A corrected source is made of the source and of the corrections. -/
theorem mem_foldl_splice {cs : List Correction} {source : Text} {c : CodePoint}
    (h : c ∈ cs.foldl Correction.splice source) : c ∈ source ∨ ∃ k ∈ cs, c ∈ k.replacement := by
  induction cs generalizing source with
  | nil => exact Or.inl h
  | cons k cs ih =>
    rcases ih h with here | ⟨k', hk', there⟩
    · rw [Correction.splice, List.mem_append, List.mem_append] at here
      rcases here with front | text | back
      · exact Or.inl (List.mem_of_mem_take front)
      · exact Or.inr ⟨k, List.mem_cons_self, text⟩
      · exact Or.inl (List.mem_of_mem_drop back)
    · exact Or.inr ⟨k', List.mem_cons_of_mem k hk', there⟩

theorem mem_apply {queue : CorrectionQueue} {source : Text} {c : CodePoint} (h : c ∈ queue.apply source) :
    c ∈ source ∨ ∃ k ∈ queue, c ∈ k.replacement := by
  refine (mem_foldl_splice h).imp_right ?_
  rintro ⟨k, hk, hc⟩
  exact ⟨k, (perm_backToFront queue).mem_iff.1 hk, hc⟩

end CorrectionQueue

/-! ## The whole report -/

namespace Json

/-- All strings and keys of the value are drawn from these texts. -/
def DrawnFrom (ts : List Text) (v : Json) : Prop := ∀ t ∈ v.texts, ∀ c ∈ t, Drawn ts c

variable {ts : List Text}

/-- What is drawn from the value is drawn from these texts, then. -/
theorem DrawnFrom.drawn {v : Json} (h : DrawnFrom ts v) {c : CodePoint} (hc : Drawn v.texts c) :
    Drawn ts c := by
  rcases hc with ascii | ⟨t, ht, member⟩
  · exact Or.inl ascii
  · exact h t ht c member

theorem drawnFrom_str {t : Text} (h : ∀ c ∈ t, Drawn ts c) : DrawnFrom ts (.str t) :=
  List.forall_mem_singleton.2 h

theorem drawnFrom_bool (b : Bool) : DrawnFrom ts (.bool b) := List.forall_mem_nil _

theorem drawnFrom_int (n : Int) : DrawnFrom ts (.int n) := List.forall_mem_nil _

theorem drawnFrom_ascii {t : Text} (h : ∀ c ∈ t, c.val < 0x80) : DrawnFrom ts (.str t) :=
  drawnFrom_str fun c hc => Or.inl (h c hc)

theorem drawnFrom_obj {fields : List (Text × Json)}
    (keys : ∀ key ∈ fields.map Prod.fst, ∀ c ∈ key, c.val < 0x80)
    (values : ∀ f ∈ fields, DrawnFrom ts f.2) : DrawnFrom ts (.obj fields) :=
  forall_mem_fieldTexts.2 fun f hf =>
    ⟨fun c hc => Or.inl (keys f.1 (List.mem_map_of_mem hf) c hc), values f hf⟩

end Json

open Json (DrawnFrom drawnFrom_bool drawnFrom_int drawnFrom_str drawnFrom_ascii drawnFrom_obj)

theorem drawnFrom_reportedFinding {ts : List Text} {r : ReportedFinding}
    (severity : r.finding.severity ∈ Contract.severities) (name : ∀ c ∈ r.finding.enumName, Drawn ts c)
    (piece : ∀ c ∈ r.finding.anchor.node.source, Drawn ts c) : DrawnFrom ts r.toJson := by
  have known : ∀ s ∈ Contract.severities, ∀ c ∈ s, c.val < 0x80 := by decide
  have keys : ∀ key ∈ (["cop", "severity", "message", "enum_name", "begin", "end", "line", "column",
      "source", "correctable"] : List Text), ∀ c ∈ key, c.val < 0x80 := by
    decide
  refine drawnFrom_obj keys ?_
  simp only [Finding.fields, List.forall_mem_append, List.forall_mem_cons]
  refine ⟨⟨drawnFrom_ascii (by decide), drawnFrom_ascii (known _ severity), drawnFrom_ascii (by decide),
    drawnFrom_str name, drawnFrom_int _, drawnFrom_int _, drawnFrom_int _, drawnFrom_int _,
    drawnFrom_str piece, List.forall_mem_nil _⟩, ?_⟩
  exact ⟨drawnFrom_bool _, List.forall_mem_nil _⟩

/-- A report that keeps the contract is drawn from these texts if its findings, its path and its corrected
    source are.  The contract leaves no choice for the rest. -/
theorem drawnFrom_report {ts : List Text} {r : Report} (accepted : Contract.lintReport.accepts r.toJson = true)
    (findings : ∀ f ∈ r.findings, (∀ c ∈ f.finding.enumName, Drawn ts c)
      ∧ ∀ c ∈ f.finding.anchor.node.source, Drawn ts c)
    (path : ∀ v, r.path = some v → DrawnFrom ts v)
    (corrected : ∀ k, r.corrected = some k → ∀ c ∈ k.text, Drawn ts c) : DrawnFrom ts r.toJson := by
  obtain ⟨-, known⟩ := accepts_lintReport_iff.1 accepted
  have keys : ∀ path corrected, ∀ key ∈ Report.keys path corrected, ∀ c ∈ key, c.val < 0x80 := by
    decide
  have listed : DrawnFrom ts (.arr (r.findings.map ReportedFinding.toJson)) := by
    refine Json.forall_mem_itemTexts.2 fun v hv => ?_
    obtain ⟨f, hf, rfl⟩ := List.mem_map.1 hv
    exact drawnFrom_reportedFinding (known f hf).1 (findings f hf).1 (findings f hf).2
  refine drawnFrom_obj ?_ ?_
  · rw [r.map_fst_fields rfl]
    exact keys _ _
  · simp only [List.forall_mem_append, List.forall_mem_cons]
    refine ⟨drawnFrom_ascii (by decide), drawnFrom_ascii ?_, drawnFrom_int _, listed, ?_, ?_⟩
    · rw [Report.status]
      split <;> decide
    · intro f hf
      obtain ⟨v, hv, rfl⟩ := List.mem_map.1 hf
      exact path v (Option.mem_toList.1 hv)
    · cases hc : r.corrected with
      | none => exact List.forall_mem_nil _
      | some k =>
        have text := drawnFrom_str (corrected k hc)
        exact List.forall_mem_cons.2 ⟨drawnFrom_int _, List.forall_mem_singleton.2 text⟩

namespace Lint

variable {settings : Settings} {request : Json} {d : Document}

/-- A correction of a run is drawn from the request. -/
theorem drawn_correction (loaded : Document.load settings request = .ok d) {k : Correction}
    (hk : k ∈ corrections settings request (findings settings d)) :
    ∀ c ∈ k.replacement, Drawn request.texts c := by
  obtain ⟨f, hf, made⟩ := List.mem_filterMap.1 hk
  rw [correctionOf] at made
  split at made
  · unfold EnumRule.autocorrect at made
    split at made
    · rename_i site elements hn
      obtain rfl := Option.some.inj made
      have array : d.Has (.array site elements) := ⟨f.anchor, anchor_mem_walk hf, hn⟩
      refine EnumRule.drawn_indexedHash fun n hn => ?_
      obtain ⟨l, hl, rfl⟩ := array.child hn
      exact Document.drawn_of_mem_walk loaded hl
    · cases made
  · cases made

theorem drawn_correctedSource (loaded : Document.load settings request = .ok d) {queue : CorrectionQueue}
    (queued : ∀ k ∈ queue, k ∈ corrections settings request (findings settings d)) :
    ∀ c ∈ queue.apply d.source, Drawn request.texts c := by
  intro c hc
  rcases CorrectionQueue.mem_apply hc with here | ⟨k, hk, there⟩
  · exact Document.drawn_source loaded c here
  · exact drawn_correction loaded (queued k hk) c there

end Lint

/-- **A report is made of the request.**  Whatever it shows is ASCII or stands in a string of the request. -/
theorem drawn_of_report {κ : Type} [DecidableEq κ] {settings : Settings} {sinks : List (Sink κ)}
    {request : Json} {r : Report} (h : (lint settings sinks request).outcome = .report r) :
    DrawnFrom request.texts r.toJson := by
  obtain ⟨d, loaded, concluded⟩ := exists_load_of_report h
  have kept := isProper_conclude settings request d (Lint.findings settings d)
  rw [concluded] at kept
  obtain ⟨rfl, -⟩ := Lint.eq_reportOf_of_conclude _ _ _ _ concluded
  refine drawnFrom_report kept ?_ ?_ ?_
  · intro reported hr
    obtain ⟨f, hf, rfl⟩ := List.mem_map.1 hr
    refine ⟨?_, (Document.drawn_of_mem_walk loaded (Lint.anchor_mem_walk hf)).2⟩
    obtain ⟨n, ⟨l, hl, rfl⟩, same⟩ := Lint.named_of_mem_findings hf
    show ∀ c ∈ f.enumName, Drawn request.texts c
    rw [same]
    exact (Document.drawn_of_mem_walk loaded hl).1
  · intro v hv t ht c hc
    exact Or.inr ⟨t, Json.texts_subset_of_get? hv ht, hc⟩
  · intro k hk
    obtain ⟨-, rfl⟩ := Lint.corrected_reportOf _ _ _ _ hk
    exact Lint.drawn_correctedSource loaded fun k hk => List.mem_eraseDups.1 hk

end NegationLint
