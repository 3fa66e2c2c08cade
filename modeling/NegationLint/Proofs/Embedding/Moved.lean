/-
  A text in front: places, nodes and findings.

  If a source stands inside a longer text, then all that is found in it is found there as well, at
  other places.  Only the text in front counts:

  1. `Span.moved` — offsets grow by its length, lines by its newlines, and columns by what stands behind
     its last newline, but those of the first line only;
  2. `span_embedded`, `slice_embedded` — THE CRUX: the longer text has the moved span at the moved
     offsets, and the same piece of text there;
  3. `Node.moved`, `Finding.moved` — trees and findings with every place moved;
  4. `findings_moved`, `autocorrect_moved` — the rule never looks at a place: it finds the moved findings
     in a moved tree, and their corrections have the same texts.
-/
import Mathlib.Data.List.Basic
import NegationLint.EnumRule
import NegationLint.Proofs.Lines
import NegationLint.Proofs.Position

namespace NegationLint

/-! ## Places -/

/-- The place of a piece once `p` stands in front of the text. -/
def Span.moved (p : Text) (s : Span) : Span where
  begin := s.begin + p.length
  stop := s.stop + p.length
  line := s.line + Text.newlines p
  column := if s.line = 1 then s.column + Text.lastLine p else s.column

/-- The line of a moved span tells which line it was, so the whole span can be told. -/
theorem Span.moved_inj {p : Text} {s t : Span} : s.moved p = t.moved p ↔ s = t := by
  constructor
  · intro h
    obtain ⟨sb, se, sl, sc⟩ := s
    obtain ⟨tb, te, tl, tc⟩ := t
    rw [Span.moved, Span.moved, Span.mk.injEq] at h
    obtain ⟨begins, stops, lines, columns⟩ := h
    have line : sl = tl := by
      have : sl + (Text.newlines p : Int) = tl + Text.newlines p := lines
      omega
    subst line
    simp only at begins stops columns
    rw [Span.mk.injEq]
    refine ⟨by omega, by omega, rfl, ?_⟩
    split at columns <;> omega
  · rintro rfl
    rfl

/-- Moved pieces overlap as they did. -/
theorem Span.overlaps_moved (p : Text) (s t : Span) :
    (s.moved p).overlaps (t.moved p) = s.overlaps t := by
  show (decide (s.begin + (p.length : Int) < t.stop + p.length)
    && decide (t.begin + (p.length : Int) < s.stop + p.length)) = _
  rw [Span.overlaps]
  congr 1 <;> exact decide_eq_decide.2 (by omega)

/-- The site of a node once `p` stands in front of the text: its own text stays. -/
def Site.moved (p : Text) (s : Site) : Site := ⟨s.span.moved p, s.source⟩

namespace Buffer

variable {s : Text} {begin stop : Int}

/-- In front of a moved offset stand `p` and what stood in front of the offset. -/
theorem take_embedded (p q : Text) (h₀ : 0 ≤ begin) (h₁ : begin ≤ s.length) :
    (p ++ (s ++ q)).take (begin + p.length).toNat = p ++ s.take begin.toNat := by
  have offset : (begin + (p.length : Int)).toNat = p.length + begin.toNat := by omega
  rw [offset, List.take_length_add_append, List.take_append_of_le_length (by omega)]

/-- The crux: at moved offsets the longer text has the moved span. -/
theorem span_embedded (p q : Text) (h₀ : 0 ≤ begin) (h₁ : begin ≤ s.length) (stop : Int) :
    (ofText (p ++ (s ++ q))).span (begin + p.length) (stop + p.length)
      = ((ofText s).span begin stop).moved p := by
  have front := take_embedded p q h₀ h₁
  have length : (s.take begin.toNat).length = begin.toNat := by
    rw [List.length_take]
    omega
  have whole : begin + (p.length : Int) ≤ (p ++ (s ++ q)).length := by
    rw [List.length_append, List.length_append]
    omega
  have before := line_span s h₀ stop
  have line : ((ofText (p ++ (s ++ q))).span (begin + p.length) (stop + p.length)).line
      = (((ofText s).span begin stop).moved p).line := by
    show _ = ((ofText s).span begin stop).line + (Text.newlines p : Int)
    rw [line_span _ (by omega), front, Text.newlines_append, before]
    omega
  have column : ((ofText (p ++ (s ++ q))).span (begin + p.length) (stop + p.length)).column
      = (((ofText s).span begin stop).moved p).column := by
    show _ = if ((ofText s).span begin stop).line = 1
      then ((ofText s).span begin stop).column + (Text.lastLine p : Int)
      else ((ofText s).span begin stop).column
    rw [column_span_of_le (by omega) whole, front, Text.lastLine_append, before,
      column_span_of_le h₀ h₁]
    -- on the first line the last line of `p` goes on, behind it the source's own lines count
    by_cases first : Text.newlines (s.take begin.toNat) = 0
    · rw [if_pos first, if_pos (by omega), Text.lastLine_eq_length first]
      omega
    · rw [if_neg first, if_neg (by omega)]
  show (⟨begin + p.length, stop + p.length, _, _⟩ : Span) = _
  exact Span.mk.injEq .. ▸ ⟨rfl, rfl, line, column⟩

/-- The longer text has the same piece at the moved offsets. -/
theorem slice_embedded (p q : Text) (h₀ : 0 ≤ begin) (h₁ : begin ≤ stop) (h₂ : stop ≤ s.length) :
    (p ++ (s ++ q)).slice (begin + p.length) (stop + p.length) = s.slice begin stop := by
  have first : (begin + (p.length : Int)).toNat = p.length + begin.toNat := by omega
  have width : (stop + (p.length : Int)).toNat - (p.length + begin.toNat)
      = stop.toNat - begin.toNat := by omega
  rw [Text.slice, Text.slice, first, width, List.drop_length_add_append,
    List.drop_append_of_le_length (by omega), List.take_append_of_le_length]
  rw [List.length_drop]
  omega

end Buffer

/-! ## Nodes -/

namespace Node

mutual

/-- A tree once `p` stands in front of its source. -/
def moved (p : Text) : Node → Node
  | send s none method arguments => send (s.moved p) none method (movedAll p arguments)
  | send s (some r) method arguments => send (s.moved p) (some (moved p r)) method (movedAll p arguments)
  | hash s entries => hash (s.moved p) (movedAll p entries)
  | pair s key value => pair (s.moved p) (moved p key) (moved p value)
  | array s elements => array (s.moved p) (movedAll p elements)
  | sym s value => sym (s.moved p) value
  | str s value => str (s.moved p) value
  | other s tag children => other (s.moved p) tag (movedAll p children)

/-- Several trees once `p` stands in front of their source. -/
def movedAll (p : Text) : List Node → List Node
  | [] => []
  | n :: ns => moved p n :: movedAll p ns

end

theorem movedAll_eq_map (p : Text) (ns : List Node) : movedAll p ns = ns.map (moved p) := by
  induction ns with
  | nil => rfl
  | cons n ns ih => rw [movedAll, ih, List.map_cons]

theorem site_moved (p : Text) (n : Node) : (n.moved p).site = n.site.moved p := by
  cases n with
  | send s r m args => cases r <;> rfl
  | _ => rfl

theorem span_moved (p : Text) (n : Node) : (n.moved p).span = n.span.moved p := by
  rw [span, site_moved]
  rfl

theorem source_moved (p : Text) (n : Node) : (n.moved p).source = n.source := by
  rw [source, site_moved]
  rfl

theorem children_moved (p : Text) (n : Node) :
    (n.moved p).children = n.children.map (moved p) := by
  cases n with
  | send s r m args => cases r <;> simp [moved, children, movedAll_eq_map]
  | _ => simp [moved, children, movedAll_eq_map]

/-- A node keeps its name: it is a text of its own, or the text that the node covers. -/
theorem literalName_moved (p : Text) (n : Node) : (n.moved p).literalName = n.literalName := by
  cases n with
  | sym s value => rfl
  | str s value => rfl
  | send s r m args =>
    have covered := source_moved p (.send s r m args)
    cases r <;> exact covered
  | _ => exact source_moved p _

end Node

namespace Located

/-- A node at the same position once `p` stands in front of its source. -/
def moved (p : Text) (l : Located) : Located := ⟨l.position, l.node.moved p⟩

theorem siblings_moved (p : Text) (position : List Nat) (first : Nat) (ns : List Node) :
    siblings position first (ns.map (Node.moved p)) = (siblings position first ns).map (moved p) := by
  induction ns generalizing first with
  | nil => rfl
  | cons n ns ih =>
    rw [List.map_cons, siblings, siblings, ih, List.map_cons]
    rfl

end Located

theorem Node.walkAt_moved (p : Text) (n : Node) (position : List Nat) :
    (n.moved p).walkAt position = (n.walkAt position).map (Located.moved p) := by
  induction n using Node.childInduction generalizing position with
  | step n ih =>
    rw [walkAt_eq, walkAt_eq, walkAll_eq, walkAll_eq, children_moved, Located.siblings_moved,
      List.map_cons, List.flatMap_map, List.map_flatMap]
    congr 1
    refine List.flatMap_congr fun l hl => ?_
    obtain ⟨i, c, hc, rfl⟩ := Located.mem_siblings.1 hl
    exact ih c (List.mem_of_getElem? hc) _

/-- The walk goes the same way through a moved tree. -/
theorem Node.walk_moved (p : Text) (n : Node) : (n.moved p).walk = n.walk.map (Located.moved p) := by
  rw [walk_eq, walk_eq, walkAt_moved]

/-! ## Findings -/

/-- A finding once `p` stands in front of the source. -/
def Finding.moved (p : Text) (f : Finding) : Finding := { f with anchor := f.anchor.moved p }

theorem Finding.span_moved (p : Text) (f : Finding) : (f.moved p).span = f.span.moved p :=
  Node.span_moved p f.anchor.node

theorem Finding.source_moved (p : Text) (f : Finding) :
    (f.moved p).anchor.node.source = f.anchor.node.source := Node.source_moved p f.anchor.node

/-- A correction once `p` stands in front of the source. -/
def Correction.moved (p : Text) (c : Correction) : Correction := { c with span := c.span.moved p }

namespace EnumRule

variable (p severity : Text)

/-- A step that commutes with moving commutes with it along a list. -/
theorem foldl_moved {step : List Finding → Located → List Finding}
    (one : ∀ found l, step (found.map (Finding.moved p)) (l.moved p)
      = (step found l).map (Finding.moved p)) (ls : List Located) (found : List Finding) :
    (ls.map (Located.moved p)).foldl step (found.map (Finding.moved p))
      = (ls.foldl step found).map (Finding.moved p) := by
  rw [List.foldl_map]
  exact List.foldl_hom (List.map (Finding.moved p)) fun found l => one found l

theorem record_moved (anchor : Located) (name : Text) (found : List Finding) :
    record severity (anchor.moved p) name (found.map (Finding.moved p))
      = (record severity anchor name found).map (Finding.moved p) := by
  rw [record, record, List.any_map]
  show (if found.any (·.anchor.position = anchor.position) = true then _ else _) = _
  split
  · rfl
  · rw [List.map_append]
    rfl

theorem entry?_moved (l : Located) :
    entry? (l.moved p)
      = (Option.map (Prod.map (Node.moved p) (Located.moved p)) <| entry? l) := by
  obtain ⟨position, n⟩ := l
  cases n with
  | send s r m args => cases r <;> rfl
  | _ => rfl

theorem checkKey_moved (found : List Finding) (l : Located) :
    checkKey severity (found.map (Finding.moved p)) (l.moved p)
      = (checkKey severity found l).map (Finding.moved p) := by
  rw [checkKey, checkKey, entry?_moved]
  rcases entry? l with _ | ⟨key, value⟩
  · rfl
  · simp only [Option.map_some, Prod.map_apply, Node.literalName_moved]
    split
    · exact record_moved p severity value _ found
    · rfl

theorem checkValue_array (found : List Finding) (position : List Nat) (s : Site) (elements : List Node) :
    checkValue severity found ⟨position, .array s elements⟩
      = (elements.find? (isNegated ·.literalName)).elim found fun e =>
        record severity ⟨position, .array s elements⟩ e.literalName found := by
  unfold checkValue
  dsimp only
  cases elements.find? (isNegated ·.literalName) <;> rfl

theorem checkValue_moved (found : List Finding) (value : Located) :
    checkValue severity (found.map (Finding.moved p)) (value.moved p)
      = (checkValue severity found value).map (Finding.moved p) := by
  obtain ⟨position, n⟩ := value
  cases n with
  | hash s entries =>
    show List.foldl _ _ (Located.siblings position 0 (Node.movedAll p entries)) = _
    rw [Node.movedAll_eq_map, Located.siblings_moved]
    exact foldl_moved p (checkKey_moved p severity) _ found
  | array s elements =>
    have named : (fun e : Node => isNegated e.literalName) ∘ Node.moved p
        = fun e => isNegated e.literalName := funext fun e => by
      show isNegated (e.moved p).literalName = _
      rw [Node.literalName_moved]
    show checkValue severity _ ⟨position, .array (s.moved p) (Node.movedAll p elements)⟩ = _
    rw [checkValue_array, checkValue_array, Node.movedAll_eq_map, List.find?_map, named,
      ← Node.movedAll_eq_map]
    cases elements.find? (isNegated ·.literalName) with
    | none => rfl
    | some e =>
      show record severity _ (e.moved p).literalName _ = _
      rw [Node.literalName_moved]
      exact record_moved p severity ⟨position, .array s elements⟩ e.literalName found
  | send s r m args => cases r <;> rfl
  | _ => rfl

theorem checkEntry_moved (found : List Finding) (l : Located) :
    checkEntry severity (found.map (Finding.moved p)) (l.moved p)
      = (checkEntry severity found l).map (Finding.moved p) := by
  rw [checkEntry, checkEntry, entry?_moved]
  rcases entry? l with _ | ⟨key, value⟩
  · rfl
  · simp only [Option.map_some, Prod.map_apply]
    rw [checkKey_moved, checkValue_moved]

theorem inspect_moved (entries : List Located) :
    inspect severity (entries.map (Located.moved p))
      = (inspect severity entries).map (Finding.moved p) :=
  foldl_moved p (checkEntry_moved p severity) entries []

theorem enumEntries?_moved (l : Located) :
    enumEntries? (l.moved p) = (enumEntries? l).map (List.map (Located.moved p)) := by
  obtain ⟨position, n⟩ := l
  cases n with
  | send s receiver method arguments =>
    rcases receiver with _ | r
    · rcases arguments with _ | ⟨a, _ | ⟨b, rest⟩⟩
      · rfl
      · cases a with
        | hash t entries =>
          show (if method = "enum"
            then some (Located.siblings (position ++ [0]) 0 (Node.movedAll p entries)) else none) = _
          rw [Node.movedAll_eq_map, Located.siblings_moved]
          show _ = Option.map _ (if method = "enum"
            then some (Located.siblings (position ++ [0]) 0 entries) else none)
          split <;> rfl
        | send t r m args => cases r <;> rfl
        | _ => rfl
      · cases a with
        | send t r m args => cases r <;> rfl
        | _ => rfl
    · rfl
  | _ => rfl

theorem findingsAt_moved (l : Located) :
    findingsAt severity (l.moved p) = (findingsAt severity l).map (Finding.moved p) := by
  rw [findingsAt, findingsAt, enumEntries?_moved]
  cases enumEntries? l with
  | none => rfl
  | some entries => exact inspect_moved p severity entries

/-- **The rule never looks at a place.**  It finds the same in a moved tree, moved. -/
theorem findings_moved (root : Node) :
    findings severity (root.moved p) = (findings severity root).map (Finding.moved p) := by
  rw [findings, findings, Node.walk_moved, List.flatMap_map, List.map_flatMap]
  exact List.flatMap_congr fun l _ => findingsAt_moved p severity l

/-! ## Corrections -/

theorem renderElement_moved (n : Node) : renderElement (n.moved p) = renderElement n := by
  cases n with
  | sym s value => rfl
  | str s value => rfl
  | send s r m args =>
    have covered := Node.source_moved p (.send s r m args)
    cases r <;> exact covered
  | _ => exact Node.source_moved p _

theorem renderEntries_moved (first : Nat) (ns : List Node) :
    renderEntries first (ns.map (Node.moved p)) = renderEntries first ns := by
  induction ns generalizing first with
  | nil => rfl
  | cons n ns ih =>
    cases ns with
    | nil =>
      rw [List.map_singleton, renderEntries, renderEntries, renderElement_moved]
    | cons m ns =>
      have rest := ih (first + 1)
      rw [List.map_cons] at rest
      rw [List.map_cons, List.map_cons, renderEntries_cons_cons, renderEntries_cons_cons,
        renderElement_moved, rest]

theorem indexedHash_moved (elements : List Node) :
    indexedHash (elements.map (Node.moved p)) = indexedHash elements := by
  rw [indexedHash, renderEntries_moved]
  rfl

/-- A moved finding is corrected by the same text at the moved place. -/
theorem autocorrect_moved (f : Finding) :
    autocorrect (f.moved p) = (autocorrect f).map (Correction.moved p) := by
  obtain ⟨⟨position, n⟩, name, found⟩ := f
  cases n with
  | array s elements =>
    show some (⟨s.span.moved p, indexedHash (Node.movedAll p elements)⟩ : Correction) = _
    rw [Node.movedAll_eq_map, indexedHash_moved]
    rfl
  | send s r m args => cases r <;> rfl
  | _ => rfl

end EnumRule

end NegationLint
