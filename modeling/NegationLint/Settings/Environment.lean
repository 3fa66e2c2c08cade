/-
  Settings read from environment variables.

  Each setting has a variable, and a variable that is unset, or whose value is not understood, leaves
  the setting at its standard value.

  * A switch is one of four words for on or for off, in any case, blanks around it ignored.
  * A severity is one of the six names, likewise.
  * A limit is a decimal integer (`Text.integer?`).  Below one it is not understood; the depth limit
    stops at `depthCeiling`, the size limit has no ceiling.
-/
import NegationLint.Settings.Basic
import NegationLint.Schema.Contracts
import NegationLint.Text.Integer

namespace NegationLint

/-! ## Variables -/

/-- The variables of the settings. -/
inductive Variable
  | enabled | severity | autocorrect | maxSourceBytes | maxDepth
deriving DecidableEq

namespace Variable

/-- The name of a variable in the environment. -/
def name : Variable → Text
  | enabled => "ENUMLINT_ENUM_NEGATIVE_ENABLED"
  | severity => "ENUMLINT_SEVERITY"
  | autocorrect => "ENUMLINT_AUTOCORRECT"
  | maxSourceBytes => "ENUMLINT_MAX_SOURCE_BYTES"
  | maxDepth => "ENUMLINT_MAX_DEPTH"

/-- All variables, in the order of the settings. -/
def all : List Variable := [enabled, severity, autocorrect, maxSourceBytes, maxDepth]

end Variable

/-- An environment: the value of each variable that is set. -/
abbrev Environment := Variable → Option Text

namespace Settings

/-- The deepest limit on the depth. -/
def depthCeiling : Int := 256

/-- The words that switch on. -/
def onWords : List Text := ["1", "true", "yes", "on"]

/-- The words that switch off. -/
def offWords : List Text := ["0", "false", "no", "off"]

/-- A switch, `standard` if it is unset or not understood. -/
def readSwitch (standard : Bool) : Option Text → Bool
  | none => standard
  | some raw =>
    let word := (Text.strip raw).toLowerAscii
    if onWords.contains word then true
    else if offWords.contains word then false
    else standard

/-- A severity, `standard` if it is unset or not one of the six. -/
def readSeverity (standard : Text) : Option Text → Text
  | none => standard
  | some raw =>
    let word := (Text.strip raw).toLowerAscii
    if Contract.severities.contains word then word else standard

/-- A limit of at least one, `standard` if it is unset or not understood. -/
def readLimit (standard : Int) (ceiling : Option Int) : Option Text → Int
  | none => standard
  | some raw =>
    match Text.integer? raw with
    | none => standard
    | some n => if n < 1 then standard else match ceiling with
      | some most => min n most
      | none => n

/-- The settings that an environment gives. -/
def ofEnvironment (env : Environment) : Settings where
  enabled := readSwitch standard.enabled (env .enabled)
  severity := readSeverity standard.severity (env .severity)
  autocorrect := readSwitch standard.autocorrect (env .autocorrect)
  maxSourceBytes := readLimit standard.maxSourceBytes none (env .maxSourceBytes)
  maxDepth := readLimit standard.maxDepth (some depthCeiling) (env .maxDepth)

/-- A severity that is read is one of the six, if the standard one is. -/
theorem readSeverity_mem {standard : Text} (h : standard ∈ Contract.severities) (raw : Option Text) :
    readSeverity standard raw ∈ Contract.severities := by
  cases raw with
  | none => exact h
  | some raw =>
    rw [readSeverity]
    split
    · rename_i known
      exact List.contains_iff_mem.1 known
    · exact h

theorem severity_ofEnvironment_mem (env : Environment) :
    (ofEnvironment env).severity ∈ Contract.severities :=
  readSeverity_mem (by decide) (env .severity)

section Limits

variable {standard : Int} {ceiling : Option Int}

theorem readLimit_of_some {raw : Text} {n : Int} (read : Text.integer? raw = some n) :
    readLimit standard ceiling (some raw) = if n < 1 then standard else ceiling.elim n (min n) := by
  rw [readLimit, read]
  cases ceiling <;> rfl

theorem readLimit_of_none {raw : Text} (unread : Text.integer? raw = none) :
    readLimit standard ceiling (some raw) = standard := by
  rw [readLimit, unread]

/-- A limit is the standard one, or an integer from one on that stops at the ceiling. -/
theorem readLimit_eq_or (standard : Int) (ceiling : Option Int) (raw : Option Text) :
    readLimit standard ceiling raw = standard
      ∨ ∃ n, 1 ≤ n ∧ readLimit standard ceiling raw = ceiling.elim n (min n) := by
  cases raw with
  | none => exact Or.inl rfl
  | some raw =>
    cases read : Text.integer? raw with
    | none => exact Or.inl (readLimit_of_none read)
    | some n =>
      rw [readLimit_of_some read]
      split
      · exact Or.inl rfl
      · exact Or.inr ⟨n, by omega, rfl⟩

theorem one_le_readLimit (h : 1 ≤ standard) (room : ∀ most ∈ ceiling, 1 ≤ most) (raw : Option Text) :
    1 ≤ readLimit standard ceiling raw := by
  rcases readLimit_eq_or standard ceiling raw with same | ⟨n, pos, read⟩
  · omega
  · rw [read]
    cases ceiling with
    | none => exact pos
    | some most =>
      have := room most rfl
      show 1 ≤ min n most
      omega

theorem readLimit_le {most : Int} (h : standard ≤ most) (raw : Option Text) :
    readLimit standard (some most) raw ≤ most := by
  rcases readLimit_eq_or standard (some most) raw with same | ⟨n, -, read⟩
  · omega
  · rw [read]
    exact Int.min_le_right n most

end Limits

end Settings

end NegationLint
