/-
  Contracts and examples by name.

  Callers ask for a contract or an example by its name; a name that is not registered is answered by
  that name, shown between quotes.  The two examples are a smallest document with one offense and
  the report on it.
-/
import NegationLint.Schema.Contracts
import NegationLint.Text.Displayed

namespace NegationLint

/-- A name that is not registered. -/
structure UnknownName where
  name : Text

/-- The message of an unknown name: the name itself. -/
def UnknownName.message (e : UnknownName) : Text := e.name.displayed

/-- An example value under its published names. -/
structure Example where
  name : Text
  file : Text
  value : Json

namespace Contract

/-- The registered contracts. -/
def registered : List Contract := [astDocument, astNode, lintRequest, lintReport]

/-- The contract of a name. -/
def named (name : Text) : Except UnknownName Contract :=
  match registered.find? (·.name = name) with
  | some c => .ok c
  | none => .error ⟨name⟩

end Contract

namespace Example

/-- A raw node between two offsets. -/
def node (tag : Text) (begin stop : Int) (children : List Json) : Json :=
  .obj [("type", .str tag), ("loc", .obj [("begin", .int begin), ("end", .int stop)]),
    ("children", .arr children)]

/-- A raw symbol between two offsets. -/
def symbol (begin stop : Int) (value : Text) : Json := node "sym" begin stop [.str value]

/-- One declaration with one negated value. -/
def document : Example where
  name := "ast_document_example_min"
  file := "ast_document_example_min.json"
  value := .obj [("source", .str "enum status: \x7b active: 0, not_active: 1 \x7d"),
    ("ast", node "send" 0 41 [.null, .str "enum",
      node "hash" 5 41 [
        node "pair" 5 41 [symbol 5 12 "status",
          node "hash" 13 41 [
            node "pair" 15 24 [symbol 15 22 "active", node "int" 23 24 [.int 0]],
            node "pair" 26 39 [symbol 26 37 "not_active", node "int" 38 39 [.int 1]]]]]])]

/-- The report on that document. -/
def report : Example where
  name := "lint_report_example_min"
  file := "lint_report_example_min.json"
  value := .obj [("operation", .str "enum_lint"), ("status", .str "offenses"),
    ("findings_count", .int 1),
    ("findings", .arr [.obj [("cop", .str "Rails/EnumNegative"), ("severity", .str "convention"),
      ("message", .str
        "Enum contains values starting with 'not_'. Avoid using 'not_*' named enum values."),
      ("enum_name", .str "not_active"), ("begin", .int 38), ("end", .int 39), ("line", .int 1),
      ("column", .int 38), ("source", .str "1"), ("correctable", .bool false)]])]

/-- The registered examples. -/
def registered : List Example := [document, report]

/-- The example of a name. -/
def named (name : Text) : Except UnknownName Example :=
  match registered.find? (·.name = name) with
  | some e => .ok e
  | none => .error ⟨name⟩

end Example

end NegationLint
