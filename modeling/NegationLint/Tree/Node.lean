/-
  The syntax tree of a Ruby source.

  A node is one of seven shapes.  Six of them are shapes the rule looks into: a method call, a hash
  literal and its entries, an array literal, a symbol and a string; everything else is an `other`
  node that keeps its tag and the nodes below it.  Each node has its `Site`: the span it covers
  and the text of that span.

  * `Node.children` — the nodes right below, in source order (a receiver before the arguments);
  * `Node.literalName` — what a node is called as an enum key or element: the text of a symbol or a
    string, the source of anything else.
-/
import NegationLint.Source

namespace NegationLint

/-- Where a node stands. -/
structure Site where
  span : Span
  source : Text

/-- A node of the syntax tree. -/
inductive Node
  /-- a method call, without receiver if the method is called on the implicit self -/
  | send (site : Site) (receiver : Option Node) (method : Text) (arguments : List Node)
  | hash (site : Site) (entries : List Node)
  /-- one entry of a hash -/
  | pair (site : Site) (key value : Node)
  | array (site : Site) (elements : List Node)
  | sym (site : Site) (value : Text)
  | str (site : Site) (value : Text)
  | other (site : Site) (tag : Text) (children : List Node)

/-- The shape of a node. -/
inductive NodeKind
  | send | hash | pair | array | sym | str | other
deriving DecidableEq

namespace NodeKind

/-- The word for a shape. -/
def name : NodeKind → Text
  | send => "send"
  | hash => "hash"
  | pair => "pair"
  | array => "array"
  | sym => "sym"
  | str => "str"
  | other => "other"

/-- The shape that a parser's tag selects. -/
def ofTag (tag : Text) : NodeKind :=
  if tag = "send" then send
  else if tag = "hash" then hash
  else if tag = "pair" then pair
  else if tag = "array" then array
  else if tag = "sym" then sym
  else if tag = "str" then str
  else other

end NodeKind

namespace Node

/-- Where the node stands. -/
def site : Node → Site
  | send s _ _ _ => s
  | hash s _ => s
  | pair s _ _ => s
  | array s _ => s
  | sym s _ => s
  | str s _ => s
  | other s _ _ => s

/-- The shape of the node. -/
def kind : Node → NodeKind
  | send .. => .send
  | hash .. => .hash
  | pair .. => .pair
  | array .. => .array
  | sym .. => .sym
  | str .. => .str
  | other .. => .other

/-- The piece of the source that the node covers. -/
def span (n : Node) : Span := n.site.span

/-- The source text of the node. -/
def source (n : Node) : Text := n.site.source

/-- The nodes right below, in source order. -/
def children : Node → List Node
  | send _ receiver _ arguments => receiver.toList ++ arguments
  | hash _ entries => entries
  | pair _ key value => [key, value]
  | array _ elements => elements
  | sym .. => []
  | str .. => []
  | other _ _ children => children

/-- The text of a symbol or a string, the source of any other node. -/
def literalName : Node → Text
  | sym _ value => value
  | str _ value => value
  | n => n.source

end Node

end NegationLint
