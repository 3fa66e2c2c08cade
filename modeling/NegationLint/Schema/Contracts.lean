/-
  The published contracts.

  Four contracts fix what goes in and out: the document that a Ruby parser hands over, each node of
  its tree, the request to lint a document, and the report that answers it.  A contract has a name
  for callers, a file name and an address for other tools, and a title.

  * The document's envelope is open; the node, the request and the report are closed.
  * A node's contract looks at the node alone: its children are any values but arrays, and each
    child that is a node answers for itself.
-/
import NegationLint.Schema.Basic

namespace NegationLint

/-- A schema under its published names. -/
structure Contract where
  name : Text
  file : Text
  title : Text
  description : Option Text
  schema : Schema

namespace Contract

/-- The contract keeps what it says of a value. -/
def accepts (c : Contract) (v : Json) : Bool := c.schema.accepts v

/-- The published form of the contract. -/
def toJson (c : Contract) : Json :=
  .obj ((Json.field "$schema" (.str "http://json-schema.org/draft-07/schema#"))
    :: (Json.field "$id" (.str (("https://enumlint.invalid/schemas/" : Text) ++ c.file)))
    :: (Json.field "title" (.str c.title))
    :: (c.description.toList.map (fun d => Json.field "description" (.str d)) ++ c.schema.keywords))

/-- The severities a report may carry, lowest first. -/
def severities : List Text := ["info", "refactor", "convention", "warning", "error", "fatal"]

/-- The envelope of a parsed source: its text and its root node. -/
def astDocument : Contract where
  name := "ast_document_v0.1"
  file := "ast_document_schema_v0.1.json"
  title := "enumlint AST document v0.1"
  description := some
    "Envelope for one parsed Ruby buffer: the source text plus its root node."
  schema := .record ["source", "ast"]
    [("source", .anyText), ("ast", .ofKind [.object, .null])] true

/-- One node of the tree, its children unseen. -/
def astNode : Contract where
  name := "ast_node_v0.1"
  file := "ast_node_schema_v0.1.json"
  title := "enumlint AST node v0.1"
  description := some "A single parser node. Child nodes are checked one at a time by the loader."
  schema := .record ["type", "children", "loc"]
    [("type", .text 1 (some 64)),
      ("children", .list (.ofKind [.object, .string, .number, .boolean, .null])),
      ("loc", .record ["begin", "end"] [("begin", .integer 0), ("end", .integer 0)] false)]
    false

/-- A document to lint, with the wish for a correction and a name for the source. -/
def lintRequest : Contract where
  name := "lint_request_v0.1"
  file := "lint_request_schema_v0.1.json"
  title := "enumlint lint request v0.1"
  description := none
  schema := .record ["source", "ast"]
    [("source", .anyText), ("ast", .ofKind [.object, .null]), ("autocorrect", .boolean),
      ("path", .text 0 (some 4096))]
    false

/-- One finding of a report. -/
def reportedFinding : Schema :=
  .record ["cop", "severity", "message", "enum_name", "begin", "end", "line", "column", "source"]
    [("cop", .anyText), ("severity", .oneOf severities), ("message", .anyText),
      ("enum_name", .anyText), ("begin", .integer 0), ("end", .integer 0), ("line", .integer 1),
      ("column", .integer 0), ("source", .anyText), ("correctable", .boolean)]
    false

/-- The report of a run. -/
def lintReport : Contract where
  name := "lint_report_v0.1"
  file := "lint_report_schema_v0.1.json"
  title := "enumlint lint report v0.1"
  description := none
  schema := .record ["operation", "status", "findings_count", "findings"]
    [("operation", .const "enum_lint"), ("status", .oneOf ["clean", "offenses"]),
      ("path", .anyText), ("findings_count", .integer 0), ("findings", .list reportedFinding),
      ("corrections_count", .integer 0), ("corrected_source", .anyText)]
    false

end Contract

end NegationLint
