/-
  What a host says of itself: the rules it runs and how they are set.
-/
import NegationLint.Finding
import NegationLint.Settings.Basic

namespace NegationLint

namespace CommandLine

/-- The names of the rules, in the order in which they run. -/
def rules : List Text := [ruleName]

/-- The line on one rule. -/
def ruleLine (settings : Settings) (rule : Text) : Text :=
  ("- " : Text) ++ rule ++ (": " : Text) ++ (if settings.enabled then "enabled" else "disabled" : Text)
    ++ (", severity=" : Text) ++ settings.severity ++ ("\n" : Text)

/-- The rules with their settings. -/
def summary (settings : Settings) : Text :=
  ("enumlint host initialized with cops:\n\n" : Text) ++ rules.flatMap (ruleLine settings)

end CommandLine

end NegationLint
