/-
  Findings of the rule.

  A finding says that the enum value at `anchor` has a name that already begins with `not_`.  The
  anchor is a node at its position, so two findings at two equal nodes stay apart.  The rule's name
  and its message are the same for every finding; the severity is the one configured.
-/
import NegationLint.Json.Basic
import NegationLint.Tree.Walk

namespace NegationLint

/-- The rule's name in reports and logs. -/
def ruleName : Text := "Rails/EnumNegative"

/-- What the rule has to say. -/
def ruleMessage : Text :=
  "Enum contains values starting with 'not_'. Avoid using 'not_*' named enum values."

/-- One offense. -/
structure Finding where
  anchor : Located
  enumName : Text
  severity : Text

namespace Finding

/-- The span of the anchor. -/
def span (f : Finding) : Span := f.anchor.node.span

/-- The fields that describe a finding. -/
def fields (f : Finding) : List (Text × Json) := [
  ("cop", .str ruleName), ("severity", .str f.severity), ("message", .str ruleMessage),
  ("enum_name", .str f.enumName), ("begin", .int f.span.begin), ("end", .int f.span.stop),
  ("line", .int f.span.line), ("column", .int f.span.column),
  ("source", .str f.anchor.node.source)]

end Finding

end NegationLint
