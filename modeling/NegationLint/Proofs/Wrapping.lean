/-
  A node around other nodes.

  A parser wraps declarations in nodes of many kinds that the rule knows nothing of: a class, a body, a
  block.  Such a node adds nothing of its own.  What is below it is loaded and linted part by part, as if
  each part were a document of its own on the same source:

  1. `Located.under`, `Finding.under` — a node or a finding of a part, at its place in the whole;
  2. `findingsAt_under`, `walkAt_under` — the rule and the walk never look above the node they are at;
  3. `findings_other` — THE CRUX for what is found: a node around others has what they have, one after
     another.  `map_findings_other` says it for every view of findings that does not show their places;
  4. `load_part`, `load_whole` — loading does the same: the whole is built of what its parts build to, so
     that it fails as the first of them that fails (`failure?_load_whole`);
  5. `wrapping_concatenates` — both together, for a node with any scalars between its parts.
-/
import NegationLint.Proofs.Inspection
import NegationLint.Proofs.Loading

namespace NegationLint

/-! ## Places in the whole -/

/-- A node of the part at this position, at its place in the whole. -/
def Located.under (p : List Nat) (l : Located) : Located := ⟨p ++ l.position, l.node⟩

/-- A finding in the part at this position, at its place in the whole. -/
def Finding.under (p : List Nat) (f : Finding) : Finding := { f with anchor := f.anchor.under p }

/-- The view of a finding does not show its place in a tree. -/
def Finding.Placeless {α : Type} (view : Finding → α) : Prop := ∀ p f, view (Finding.under p f) = view f

theorem Finding.placeless_fields : Placeless Finding.fields := fun _ _ => rfl

theorem Finding.placeless_span : Placeless fun f => (f.enumName, f.span) := fun _ _ => rfl

section Under

variable (p : List Nat)

theorem Located.siblings_under (position : List Nat) (first : Nat) (ns : List Node) :
    siblings (p ++ position) first ns = (siblings position first ns).map (under p) := by
  induction ns generalizing first with
  | nil => rfl
  | cons n ns ih =>
    rw [siblings, siblings, ih, List.map_cons, under, List.append_assoc]

theorem Node.walkAt_under (n : Node) (position : List Nat) :
    n.walkAt (p ++ position) = (n.walkAt position).map (Located.under p) := by
  induction n using Node.childInduction generalizing position with
  | step n ih =>
    rw [walkAt_eq, walkAt_eq, walkAll_eq, walkAll_eq, Located.siblings_under, List.map_cons,
      List.flatMap_map, List.map_flatMap]
    congr 1
    refine List.flatMap_congr fun l hl => ?_
    obtain ⟨i, c, hc, rfl⟩ := Located.mem_siblings.1 hl
    exact ih c (List.mem_of_getElem? hc) _

namespace EnumRule

variable (severity : Text)

theorem entry?_under {p : List Nat} {l value : Located} {key : Node}
    (h : entry? l = some (key, value)) : entry? (l.under p) = some (key, value.under p) := by
  obtain ⟨site, n, node, rfl⟩ := entry?_eq_some_iff.1 h
  refine entry?_eq_some_iff.2 ⟨site, n, node, ?_⟩
  rw [Located.under, Located.under, List.append_assoc]

theorem entry?_under_of_none {p : List Nat} {l : Located} (h : entry? l = none) :
    entry? (l.under p) = none := by
  obtain ⟨position, n⟩ := l
  cases n with
  | pair s key value => cases h
  | _ => rfl

theorem keyFindings_under (l : Located) :
    keyFindings severity (l.under p) = (keyFindings severity l).map (Finding.under p) := by
  cases he : entry? l with
  | none =>
    rw [keyFindings_of_none he, keyFindings_of_none (entry?_under_of_none he)]
    rfl
  | some entry =>
    obtain ⟨key, value⟩ := entry
    rw [keyFindings_of_entry he, keyFindings_of_entry (entry?_under he)]
    split <;> rfl

theorem valueFindings_under (reported : Bool) (value : Located) :
    valueFindings severity reported (value.under p)
      = (valueFindings severity reported value).map (Finding.under p) := by
  obtain ⟨position, n⟩ := value
  cases n with
  | hash s entries =>
    show (Located.siblings (p ++ position) 0 entries).flatMap (keyFindings severity) = List.map _
      ((Located.siblings position 0 entries).flatMap (keyFindings severity))
    rw [Located.siblings_under, List.flatMap_map, List.map_flatMap]
    exact List.flatMap_congr fun l _ => keyFindings_under p severity l
  | array s elements =>
    rw [valueFindings, valueFindings]
    dsimp only [Located.under]
    split
    · rfl
    · cases elements.find? (isNegated ·.literalName) <;> rfl
  | _ => rfl

theorem entryFindings_under (l : Located) :
    entryFindings severity (l.under p) = (entryFindings severity l).map (Finding.under p) := by
  cases he : entry? l with
  | none =>
    rw [entryFindings_of_none he, entryFindings_of_none (entry?_under_of_none he)]
    rfl
  | some entry =>
    obtain ⟨key, value⟩ := entry
    rw [entryFindings_of_entry he, entryFindings_of_entry (entry?_under he), keyFindings_under,
      valueFindings_under, List.map_append]

theorem enumEntries?_under (l : Located) :
    enumEntries? (l.under p) = (enumEntries? l).map (List.map (Located.under p)) := by
  obtain ⟨position, n⟩ := l
  rw [enumEntries?, enumEntries?]
  dsimp only [Located.under]
  split
  · rw [List.append_assoc, Located.siblings_under]
    split <;> rfl
  · rfl

/-- The findings at a node do not depend on what is above it. -/
theorem findingsAt_under (l : Located) :
    findingsAt severity (l.under p) = (findingsAt severity l).map (Finding.under p) := by
  rw [findingsAt_eq, findingsAt_eq, enumEntries?_under]
  cases enumEntries? l with
  | none => rfl
  | some entries =>
    show (entries.map (Located.under p)).flatMap _ = List.map _ (entries.flatMap _)
    rw [List.flatMap_map, List.map_flatMap]
    exact List.flatMap_congr fun entry _ => entryFindings_under p severity entry

/-- What is found in a part of a tree is what is found in the part alone. -/
theorem flatMap_walkAt (n : Node) : (n.walkAt p).flatMap (findingsAt severity)
    = (findings severity n).map (Finding.under p) := by
  have walk := n.walkAt_under p []
  rw [List.append_nil] at walk
  rw [walk, List.flatMap_map, findings, Node.walk_eq, List.map_flatMap]
  exact List.flatMap_congr fun l _ => findingsAt_under p severity l

/-- **The crux for what is found.**  A node that the rule does not look into has what the nodes below it
    have, one after another. -/
theorem findings_other (s : Site) (tag : Text) (ns : List Node) : findings severity (.other s tag ns)
    = (Located.siblings [] 0 ns).flatMap fun l =>
      (findings severity l.node).map (Finding.under l.position) := by
  rw [findings, Node.walk_eq, Node.walkAt_eq, Node.walkAll_eq, List.flatMap_cons, List.flatMap_assoc]
  exact List.flatMap_congr fun l _ => flatMap_walkAt l.position severity l.node

theorem map_findings_other {α : Type} {view : Finding → α} (placeless : Finding.Placeless view) (s : Site)
    (tag : Text) (ns : List Node) : (findings severity (.other s tag ns)).map view
      = ns.flatMap fun n => (findings severity n).map view := by
  have nodes := Located.map_node_siblings [] 0 ns
  rw [findings_other, List.map_flatMap]
  conv_rhs => rw [← nodes, List.flatMap_map]
  refine List.flatMap_congr fun l _ => ?_
  rw [List.map_map]
  exact List.map_congr_left fun f _ => placeless l.position f

end EnumRule

end Under

/-! ## Loading -/

/-- The parts of a raw node: the raw nodes among its children. -/
def RawNode.parts (n : RawNode) : List Json := n.children.filter Json.isObject

namespace Json

/-- The raw document of a source and a tree. -/
def document (source : Text) (root : Json) : Json := .obj [("source", .str source), ("ast", root)]

theorem envelope_document {source : Text} {root : Json} (object : root.isObject = true) :
    Envelope (document source root) source root :=
  ⟨rfl, rfl, Or.inl object⟩

/-- The object with these fields spells a node that the rule does not look into, at a place inside the
    source. -/
structure Wraps (source : Text) (fields : List (Text × Json)) (n : RawNode) : Prop where
  spelled : Spells fields n
  uninterpreted : n.tag ∉ (["send", "hash", "pair", "array", "sym", "str"] : List Text)
  ordered : n.begin ≤ n.stop
  inside : n.stop ≤ source.length
  integral : n.integral = true

theorem Wraps.kind_eq {source : Text} {fields : List (Text × Json)} {n : RawNode}
    (h : Wraps source fields n) : NodeKind.ofTag n.tag = .other := by
  have other := h.uninterpreted
  simp only [List.mem_cons, List.not_mem_nil, or_false, not_or] at other
  obtain ⟨send, hash, pair, array, sym, str⟩ := other
  rw [NodeKind.ofTag, if_neg send, if_neg hash, if_neg pair, if_neg array, if_neg sym, if_neg str]

theorem Wraps.rawChildren_eq {source : Text} {fields : List (Text × Json)} {n : RawNode}
    (h : Wraps source fields n) : (Json.obj fields).rawChildren = n.parts := by
  rw [rawChildren, childItems_eq_of_lookup h.spelled.children]
  rfl

end Json

namespace Document

open Json (Wraps document)

section Load

variable {settings : Settings} {source : Text} {bytes : Nat}
variable {fields : List (Text × Json)} {n : RawNode}

/-- The document of a node around these nodes. -/
def around (source : Text) (n : RawNode) (ns : List Node) : Document :=
  ⟨Buffer.ofText source, some (.other (siteOf (Buffer.ofText source) n) n.tag ns)⟩

theorem map_findings_around {α : Type} {view : Finding → α} (placeless : Finding.Placeless view)
    (settings : Settings) (source : Text) (n : RawNode) (ns : List Node) :
    (Lint.findings settings (around source n ns)).map view
      = (ns.map fun m => (⟨Buffer.ofText source, some m⟩ : Document)).flatMap fun d =>
        (Lint.findings settings d).map view := by
  have alone (m : Node) : Lint.findings settings ⟨Buffer.ofText source, some m⟩
      = if settings.enabled then EnumRule.findings settings.severity m else [] := rfl
  rw [List.flatMap_map]
  simp only [around, alone]
  split
  · exact EnumRule.map_findings_other _ placeless ..
  · exact (List.flatMap_eq_nil_iff.2 fun m _ => rfl).symm

variable (size : source.utf8Size? = some bytes) (small : bytes ≤ settings.maxSourceBytes)

include size small

/-- A document within the limits loads as its tree builds. -/
theorem load_document {root : Json} (object : root.isObject = true)
    (shallow : root.height ≤ settings.maxDepth) : load settings (document source root)
      = (fun m => ⟨Buffer.ofText source, some m⟩) <$> build (Buffer.ofText source) root := by
  rw [load_of_small (Json.envelope_document object) size small, loadTree_of_shallow object shallow]

variable (wraps : Wraps source fields n) (shallow : (Json.obj fields).height ≤ settings.maxDepth)

include wraps shallow

/-- A part is less high than the whole, so it is a document within the limits as well. -/
theorem load_part {part : Json} (hp : part ∈ n.parts) : load settings (document source part)
    = (fun m => ⟨Buffer.ofText source, some m⟩) <$> build (Buffer.ofText source) part := by
  have lower := Json.height_lt_of_mem_rawChildren
    (wraps.rawChildren_eq ▸ hp : part ∈ (Json.obj fields).rawChildren)
  exact load_document size small (List.mem_filter.1 hp).2 (by omega)

/-- The whole is a node around what its parts build to. -/
theorem load_whole : load settings (document source (.obj fields))
    = around source n <$> n.parts.mapM (build (Buffer.ofText source)) := by
  have placed : ¬ (n.stop < n.begin ∨ (Buffer.ofText source).size < n.stop) := by
    have := wraps.ordered
    have := wraps.inside
    rw [Buffer.size_ofText]
    omega
  have built : build (Buffer.ofText source) (.obj fields)
      = Node.other (siteOf (Buffer.ofText source) n) n.tag
        <$> n.parts.mapM (build (Buffer.ofText source)) := by
    rw [build_of_spells _ wraps.spelled, if_neg placed, wraps.integral, if_neg Bool.noConfusion,
      assemble_other wraps.kind_eq]
    rfl
  rw [load_document size small rfl shallow, built]
  cases n.parts.mapM (build (Buffer.ofText source)) <;> rfl

/-- The whole fails as the first of its parts that fails. -/
theorem failure?_load_whole : failure? (load settings (document source (.obj fields)))
    = n.parts.findSome? fun part => failure? (load settings (document source part)) := by
  have each : n.parts.map (fun part => failure? (build (Buffer.ofText source) part))
      = n.parts.map fun part => failure? (load settings (document source part)) :=
    List.map_congr_left fun part hp => by
      rw [load_part size small wraps shallow hp, failure?_map]
  have first := congrArg (List.findSome? id) each
  rw [List.findSome?_map, List.findSome?_map] at first
  rw [load_whole size small wraps shallow, failure?_map, failure?_mapM]
  exact first

end Load

/-- **A node around others** that the rule does not look into loads if all of its parts do, each as a
    document of its own on the same source, and fails as the first of them that fails.  When it loads, what
    is found in it is what is found in them, one after another: the same names at the same pieces of the source,
    from the same line and column, and the same field by field.  What stands between the parts, texts and
    numbers and the like, has no effect. -/
theorem wrapping_concatenates {settings : Settings} {source : Text} {bytes : Nat}
    {fields : List (Text × Json)} {n : RawNode}
    (size : source.utf8Size? = some bytes) (small : bytes ≤ settings.maxSourceBytes)
    (wraps : Wraps source fields n) (shallow : (Json.obj fields).height ≤ settings.maxDepth) :
    let alone (root : Json) := load settings (document source root)
    ((∃ d, alone (.obj fields) = .ok d) ↔ ∀ part ∈ n.parts, ∃ d, alone part = .ok d)
    ∧ (∀ e, alone (.obj fields) = .error e ↔ ∃ before part after, n.parts = before ++ part :: after
      ∧ alone part = .error e ∧ ∀ p ∈ before, ∃ d, alone p = .ok d)
    ∧ (∀ d, alone (.obj fields) = .ok d →
      ∃ ds, List.Forall₂ (fun part d => alone part = .ok d) n.parts ds
        ∧ (Lint.findings settings d).map (fun f => (f.enumName, f.span))
          = ds.flatMap (fun d => (Lint.findings settings d).map fun f => (f.enumName, f.span))
        ∧ (Lint.findings settings d).map Finding.fields
          = ds.flatMap fun d => (Lint.findings settings d).map Finding.fields)
    ∧ ∀ fields' children', Wraps source fields' { n with children := children' } →
      children'.filter Json.isObject = n.parts → alone (.obj fields') = alone (.obj fields) := by
  intro alone
  have whole : alone (.obj fields) = _ := load_whole size small wraps shallow
  have failure : failure? (alone (.obj fields)) = n.parts.findSome? fun part => failure? (alone part) :=
    failure?_load_whole size small wraps shallow
  refine ⟨?_, ?_, ?_, ?_⟩
  · rw [← failure?_eq_none_iff, failure, List.findSome?_eq_none_iff]
    exact forall₂_congr fun part _ => failure?_eq_none_iff
  · intro e
    rw [← failure?_eq_some_iff, failure, List.findSome?_eq_some_iff]
    simp only [failure?_eq_some_iff, failure?_eq_none_iff]
  · intro d loaded
    rw [whole] at loaded
    cases built : n.parts.mapM (build (Buffer.ofText source)) with
    | error e =>
      rw [built] at loaded
      cases loaded
    | ok ns =>
      rw [built] at loaded
      obtain rfl := Except.ok.inj loaded
      refine ⟨ns.map fun m => ⟨Buffer.ofText source, some m⟩, ?_,
        map_findings_around Finding.placeless_span settings source n ns,
        map_findings_around Finding.placeless_fields settings source n ns⟩
      have each := (List.forall₂_and_left ..).2
        ⟨fun part hp => load_part size small wraps shallow hp, mapM_eq_ok_iff.1 built⟩
      rw [List.forall₂_map_right_iff]
      refine each.imp ?_
      rintro part m ⟨loads, builds⟩
      rw [show alone part = _ from loads, builds]
      rfl
  · intro fields' children' wraps' same
    have below : (Json.obj fields').rawChildren = n.parts := wraps'.rawChildren_eq.trans same
    have shallow' : (Json.obj fields').height ≤ settings.maxDepth := by
      rwa [Json.height_eq, below, ← wraps.rawChildren_eq, ← Json.height_eq]
    have whole' : alone (.obj fields') = _ := load_whole size small wraps' shallow'
    rw [whole', whole, ← same]
    rfl

/-- A declaration of sixteen characters with one negated value in a list. -/
def listDeclaration (begin : Int) (key name : Text) : Json :=
  Example.node "send" begin (begin + 16) [.null, .str "enum",
    Example.node "hash" (begin + 5) (begin + 16) [Example.node "pair" (begin + 5) (begin + 16) [
      Example.symbol (begin + 5) (begin + 6) key, Example.node "array" (begin + 8) (begin + 16) [
        Example.symbol (begin + 9) (begin + 15) name]]]]

/-- A class with two declarations and some scalars around them. -/
def twoDeclarations : Json :=
  Example.node "class" 0 46 [.str "A", listDeclaration 8 "a" "not_b", .null,
    listDeclaration 26 "c" "not_d", .bool true]

/-- Both declarations are found, in order. -/
theorem wrapping_concatenates_twoDeclarations :
    let source : Text := "class A enum a: [:not_b]; enum c: [:not_d] end"
    ∃ d first second, load .standard (document source twoDeclarations) = .ok d
      ∧ load .standard (document source (listDeclaration 8 "a" "not_b")) = .ok first
      ∧ load .standard (document source (listDeclaration 26 "c" "not_d")) = .ok second
      ∧ (Lint.findings .standard d).map (fun f => (f.enumName, f.span))
        = [(("not_b" : Text), ⟨16, 24, 1, 16⟩), (("not_d" : Text), ⟨34, 42, 1, 34⟩)]
      ∧ (Lint.findings .standard d).map Finding.fields
        = (Lint.findings .standard first).map Finding.fields
          ++ (Lint.findings .standard second).map Finding.fields := by
  intro source
  have node : ∃ fields n, twoDeclarations = .obj fields ∧ Wraps source fields n
      ∧ n.parts = [listDeclaration 8 "a" "not_b", listDeclaration 26 "c" "not_d"] :=
    ⟨_, _, rfl, ⟨Json.node?_eq_some_iff.1 rfl, by decide, by decide, by decide, rfl⟩, rfl⟩
  obtain ⟨fields, n, shape, wraps, parts⟩ := node
  have shallow : (Json.obj fields).height ≤ Settings.standard.maxDepth := by
    rw [← shape, ← Json.depth_eq_height]
    decide
  have small : ((46 : Nat) : Int) ≤ Settings.standard.maxSourceBytes := by decide
  have loads : ∃ d first second, load .standard (document source twoDeclarations) = .ok d
      ∧ load .standard (document source (listDeclaration 8 "a" "not_b")) = .ok first
      ∧ load .standard (document source (listDeclaration 26 "c" "not_d")) = .ok second
      ∧ (Lint.findings .standard first).map (fun f => (f.enumName, f.span))
        = [(("not_b" : Text), ⟨16, 24, 1, 16⟩)]
      ∧ (Lint.findings .standard second).map (fun f => (f.enumName, f.span))
        = [(("not_d" : Text), ⟨34, 42, 1, 34⟩)] :=
    ⟨_, _, _, rfl, rfl, rfl, rfl, rfl⟩
  obtain ⟨d, first, second, hd, hfirst, hsecond, one, other⟩ := loads
  obtain ⟨-, -, joined, -⟩ := wrapping_concatenates rfl small wraps shallow
  obtain ⟨ds, each, named, found⟩ := joined d (shape ▸ hd)
  -- the two documents are those of the two declarations
  rw [parts, List.forall₂_cons_left_iff] at each
  obtain ⟨_, _, here, each, rfl⟩ := each
  obtain rfl := Except.ok.inj (here.symm.trans hfirst)
  rw [List.forall₂_cons_left_iff] at each
  obtain ⟨_, _, here', none, rfl⟩ := each
  obtain rfl := Except.ok.inj (here'.symm.trans hsecond)
  obtain rfl := List.forall₂_nil_left_iff.1 none
  rw [List.flatMap_cons, List.flatMap_cons, List.flatMap_nil, one, other] at named
  rw [List.flatMap_cons, List.flatMap_cons, List.flatMap_nil, List.append_nil] at found
  exact ⟨d, _, _, hd, hfirst, hsecond, named, found⟩

end Document

end NegationLint
