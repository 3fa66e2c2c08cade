/-
  Documents: a source with the tree that a Ruby parser has made of it.

  A raw document is JSON: the source text and a raw root node, or null for an empty file.  Loading it
  checks everything and builds the typed tree.  The checks come in stages, and the first that fails
  names the error:

  1. the envelope keeps the contract `astDocument`;
  2. the source can be encoded, and is not too large for the limit in bytes;
  3. the tree is not too deep, whatever else may be wrong with it;
  4. the nodes, in pre-order: every node's own checks before those of its children.

  A node's own checks are, in this order: it is an object; it keeps the contract `astNode`; its two
  offsets lie inside the source in the right order; both are written as integers; its children have
  the form that its tag asks for.  An offset written with a point (`1.0`) passes as a whole number
  and fails only where the source is cut, which is an error of its own.

  `build` follows the raw tree: `childResults` pairs every raw child with what it builds to, and
  `assemble` picks from these in source order, so the leftmost failure wins.
-/
import NegationLint.Schema.Contracts
import NegationLint.Settings.Basic
import NegationLint.Text.Utf8
import NegationLint.Tree.Depth
import NegationLint.Tree.Walk

namespace NegationLint

/-- Why a raw document is refused. -/
inductive LoadError
  /-- the envelope breaks its contract -/
  | envelope
  /-- the source holds half a surrogate pair -/
  | unencodable
  | tooLarge (bytes : Nat) (limit : Int)
  | tooDeep (depth : Nat) (limit : Int)
  | notAnObject
  /-- a node breaks its contract -/
  | malformedNode
  | outsideSource
  /-- an offset is whole but not written as an integer -/
  | decimalOffset
  | pairArity
  | literalForm
  | sendArity
  | sendMethod
deriving DecidableEq

/-- The message of an error that a check of the loader finds; it says nothing about the source or the tree.
    Two errors are not found by a check but come up where the source is encoded and where it is cut, and
    have no message here. -/
def LoadError.message : LoadError → Option Text
  | envelope => some "AST document failed validation."
  | unencodable => none
  | tooLarge _ _ => some "Source exceeds maximum allowed size."
  | tooDeep _ _ => some "AST nesting exceeds the maximum allowed depth."
  | notAnObject => some "AST node must be an object."
  | malformedNode => some "AST node failed validation."
  | outsideSource => some "AST node location lies outside the source."
  | decimalOffset => none
  | pairArity => some "Pair node must have exactly two children."
  | literalForm => some "Literal node must carry exactly one string value."
  | sendArity => some "Send node must carry a receiver slot and a method name."
  | sendMethod => some "Send node method name must be a string."

/-- A source with its tree; an empty file has no tree. -/
structure Document where
  buffer : Buffer
  root : Option Node

namespace Document

/-- The source text. -/
def source (d : Document) : Text := d.buffer.text

/-- The nodes of a document in the order of the walk; none for an empty file. -/
def walk (d : Document) : List Located := (d.root.map Node.walk).getD []

theorem source_of_buffer_eq {d : Document} {t : Text} (h : d.buffer = Buffer.ofText t) :
    d.source = t := by
  show d.buffer.text = t
  rw [h, Buffer.text_ofText]

theorem walk_of_root_eq_none {d : Document} (h : d.root = none) : d.walk = [] := by
  show (d.root.map Node.walk).getD [] = []
  rw [h]
  rfl

theorem walk_of_root_eq_some {d : Document} {n : Node} (h : d.root = some n) : d.walk = n.walk := by
  show (d.root.map Node.walk).getD [] = n.walk
  rw [h]
  rfl

/-! ## Building the tree -/

/-- A raw value at a place below a node, with what it builds to there. -/
abbrev Child := Json × Except LoadError Node

/-- The two offsets of a raw node that keeps its contract. -/
def offsets? (fields : List (Text × Json)) : Option (Number × Number) :=
  match Json.lookup "loc" fields with
  | some loc => match loc.get? "begin", loc.get? "end" with
    | some (.num begin), some (.num stop) => some (begin, stop)
    | _, _ => none
  | none => none

/-- A node's place in the source, if its two offsets describe one. -/
def siteBetween (b : Buffer) : Number → Number → Except LoadError Site
  | first, last =>
    match first.integer?, last.integer? with
    | some begin, some stop =>
      if stop < begin ∨ b.size < stop then .error .outsideSource
      else match first, last with
        | .int _, .int _ =>
          let span := b.span begin stop
          .ok ⟨span, b.slice span⟩
        | _, _ => .error .decimalOffset
    | _, _ => .error .malformedNode

/-- The tag and the place of a raw node: all of its own checks but the form of its children. -/
def frame (b : Buffer) (fields : List (Text × Json)) : Except LoadError (Text × Site) :=
  if !Contract.astNode.accepts (.obj fields) then .error .malformedNode
  else match Json.lookup "type" fields, offsets? fields with
    | some (.str tag), some (begin, stop) => (siteBetween b begin stop).map (tag, ·)
    | _, _ => .error .malformedNode

/-- The nodes of children that must all be nodes; the leftmost failure wins. -/
def collect (children : List Child) : Except LoadError (List Node) := children.mapM Prod.snd

/-- The node of a tag: its children must have the form that the tag asks for. -/
def assemble (tag : Text) (site : Site) (children : List Child) : Except LoadError Node :=
  match NodeKind.ofTag tag with
  | .send => match children with
    | (rawReceiver, receiver) :: (.str method, _) :: arguments => do
      let receiver ← match rawReceiver with
        | .null => pure none
        | _ => some <$> receiver
      return .send site receiver method (← collect arguments)
    | _ :: _ :: _ => .error .sendMethod
    | _ => .error .sendArity
  | .hash => .hash site <$> collect children
  | .pair => match children with
    | [(_, key), (_, value)] => do return .pair site (← key) (← value)
    | _ => .error .pairArity
  | .array => .array site <$> collect children
  | .sym => match children with
    | [(.str value, _)] => .ok (.sym site value)
    | _ => .error .literalForm
  | .str => match children with
    | [(.str value, _)] => .ok (.str site value)
    | _ => .error .literalForm
  | .other => .other site tag <$> collect (children.filter (·.1.isObject))

mutual

/-- The node that a raw value stands for. -/
def build (b : Buffer) : Json → Except LoadError Node
  | .obj fields => do
    let (tag, site) ← frame b fields
    assemble tag site (childResults b fields)
  | _ => .error .notAnObject

/-- The children of a raw node, each with what it builds to. -/
def childResults (b : Buffer) : List (Text × Json) → List Child
  | [] => []
  | (key, .arr items) :: fields =>
    if key = "children" then itemResults b items else childResults b fields
  | (key, _) :: fields => if key = "children" then [] else childResults b fields

/-- Raw values, each with what it builds to. -/
def itemResults (b : Buffer) : List Json → List Child
  | [] => []
  | v :: vs => (v, build b v) :: itemResults b vs

end

/-! ## Loading -/

/-- The tree of a source whose envelope and size are fine. -/
def loadTree (settings : Settings) (source : Text) (root : Json) : Except LoadError Document :=
  let buffer := Buffer.ofText source
  match root with
  | .null => .ok ⟨buffer, none⟩
  | _ =>
    if settings.maxDepth < root.depth then .error (.tooDeep root.depth settings.maxDepth)
    else do return ⟨buffer, some (← build buffer root)⟩

/-- A raw document with everything checked. -/
def load (settings : Settings) (raw : Json) : Except LoadError Document :=
  if !Contract.astDocument.accepts raw then .error .envelope
  else match raw.get? "source", raw.get? "ast" with
    | some (.str source), some root =>
      match source.utf8Size? with
      | none => .error .unencodable
      | some bytes =>
        if settings.maxSourceBytes < bytes then .error (.tooLarge bytes settings.maxSourceBytes)
        else loadTree settings source root
    | _, _ => .error .envelope

end Document

end NegationLint
