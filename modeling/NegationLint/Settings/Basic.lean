/-
  The settings of a run.

  * `enabled` — whether the rule runs at all;
  * `severity` — what every finding is reported as;
  * `autocorrect` — whether a request may ask for a correction;
  * `maxSourceBytes`, `maxDepth` — the limits on the source and on the tree.

  The limits are integers of any size and are used as they are given.
-/
import NegationLint.Text.Basic

namespace NegationLint

/-- The settings of a run. -/
structure Settings where
  enabled : Bool := true
  severity : Text := "convention"
  autocorrect : Bool := true
  maxSourceBytes : Int := 262144
  maxDepth : Int := 128

/-- What holds when nothing is configured. -/
def Settings.standard : Settings := {}

end NegationLint
