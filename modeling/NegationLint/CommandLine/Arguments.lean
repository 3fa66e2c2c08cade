/-
  The arguments of the command line.

      [-h] [--autocorrect] [--sink {memory,log}] document

  1. Every word is CLASSIFIED on its own first: an option, perhaps with a value behind an equals
     sign, or a plain word.  A long option may be cut short as long as one option is meant.  A lone
     dash, the empty word, a negative number and a word with a space in it are plain, and so is
     every word behind the first `--`.
  2. Then the words are CONSUMED from left to right.  The first plain word is the document.  What is
     wrong with an option ends the reading at once, and so does a call for help; words too many and
     a missing document are complained about at the end.

  `--` may stand right before and right behind the document, where it says nothing, and behind the
  equals sign of the sink, where it stands for no value.  The letter of `-h` may be repeated in its
  word (`-hh`, `-h=h`); whatever else stands behind it is a misuse.
-/
import NegationLint.Text.DecimalDigit

namespace NegationLint

namespace CommandLine

/-- What the caller asks for. -/
structure Arguments where
  document : Text
  autocorrect : Bool
  /-- findings go to the log as well -/
  logged : Bool
deriving DecidableEq

/-- Why there is nothing to run. -/
inductive Exit
  | help
  | misuse
deriving DecidableEq

/-- The exit status of a call that runs nothing. -/
def Exit.status : Exit → Nat
  | help => 0
  | misuse => 2

/-- The options. -/
inductive Flag
  | help | autocorrect | sink
deriving DecidableEq

/-- The long name of an option. -/
def Flag.name : Flag → Text
  | help => "--help"
  | autocorrect => "--autocorrect"
  | sink => "--sink"

/-- A word of the command line, by what it is. -/
inductive Word
  | plain (text : Text)
  /-- the first `--` -/
  | dashes
  /-- a long option, with the value behind its equals sign -/
  | option (flag : Flag) (value : Option Text)
  /-- the short call for help, with the value that stands directly behind it -/
  | shortHelp (value : Option Text)
  | unknownOption

/-! ## Classification -/

/-- A text cut at its first equals sign: what is before, and what is behind if there is one. -/
def cutAtEquals : Text → Text × Option Text
  | [] => ([], none)
  | c :: rest =>
    if c.is '=' then ([], some rest)
    else let (before, behind) := cutAtEquals rest
      (c :: before, behind)

/-- A decimal digit of any script. -/
def isDigit (c : CodePoint) : Bool := c.digitValue?.isSome

/-- A dash and a number: digits, or a point with digits behind it and perhaps before.  A newline may
    follow. -/
def isNegativeNumber : Text → Bool
  | [] => false
  | c :: rest =>
    c.is '-' &&
      let body := if rest.getLast?.any (·.is '\n') then rest.dropLast else rest
      (!body.isEmpty && body.all isDigit)
        || (match body.dropWhile isDigit with
          | point :: places => point.is '.' && !places.isEmpty && places.all isDigit
          | [] => false)

/-- What a word with a dash in front is if it is no option. -/
def classifyOther (t : Text) : Word :=
  if isNegativeNumber t || t.contains (CodePoint.ofChar ' ') then .plain t else .unknownOption

/-- The value of a short option, from what stands directly behind the option's letter.  An equals sign
    in front is no part of the value, so that only with one the value may be empty. -/
def shortValue : Text → Option Text
  | [] => none
  | c :: rest => some (if c.is '=' then rest else c :: rest)

/-- The options that a long word may mean. -/
def meant (name : Text) : List Flag :=
  [Flag.help, .autocorrect, .sink].filter fun f => name.isPrefixOf f.name

/-- A word by what it is; a long word that may mean several options is a misuse. -/
def classify (t : Text) : Except Exit Word :=
  match t with
  | [] => .ok (.plain t)
  | [_] => .ok (.plain t)
  | c :: d :: tail =>
    if !c.is '-' then .ok (.plain t)
    else if d.is '-' then
      let (name, value) := cutAtEquals t
      match meant name with
      | [] => .ok (classifyOther t)
      | [flag] => .ok (.option flag value)
      | _ => .error .misuse
    else if d.is 'h' then .ok (.shortHelp (shortValue tail))
    else .ok (classifyOther t)

/-- All words by what they are. -/
def classifyAll : List Text → Except Exit (List Word)
  | [] => .ok []
  | t :: ts =>
    if t = ("--" : Text) then .ok (.dashes :: ts.map .plain)
    else do return (← classify t) :: (← classifyAll ts)

/-! ## Consumption -/

/-- What has been read so far. -/
structure Draft where
  document : Option Text := none
  autocorrect : Bool := false
  logged : Bool := false
  hasExtra : Bool := false

/-- How the short call for help ends.  A value can only be the call's own letter, once or several
    times: it then calls for help again. -/
def shortHelpExit : Option Text → Exit
  | none => .help
  | some [] => .misuse
  | some (c :: rest) => if (c :: rest).all (·.is 'h') then .help else .misuse

/-- The draft with findings sent where this word says. -/
def Draft.choose (draft : Draft) (choice : Text) : Except Exit Draft :=
  if choice = ("log" : Text) then .ok { draft with logged := true }
  else if choice = ("memory" : Text) then .ok { draft with logged := false }
  else .error .misuse

/-- The draft with findings sent where the value behind the equals sign says.  `--` there stands for no
    value: findings go to no other place than the report. -/
def Draft.chooseValue (draft : Draft) (value : Text) : Except Exit Draft :=
  if value = ("--" : Text) then .ok { draft with logged := false } else draft.choose value

/-- Read the words from left to right. -/
def consume (draft : Draft) : List Word → Except Exit Draft
  | [] => .ok draft
  | .plain t :: rest =>
    match draft.document with
    | some _ => consume { draft with hasExtra := true } rest
    | none => match rest with
      | .dashes :: rest => consume { draft with document := some t } rest
      | rest => consume { draft with document := some t } rest
  | .dashes :: rest =>
    match draft.document with
    | some _ => consume { draft with hasExtra := true } rest
    | none => consume draft rest
  | .unknownOption :: rest => consume { draft with hasExtra := true } rest
  | .shortHelp tail :: _ => .error (shortHelpExit tail)
  | .option .help value :: _ => .error (if value.isSome then .misuse else .help)
  | .option .autocorrect value :: rest =>
    if value.isSome then .error .misuse else consume { draft with autocorrect := true } rest
  | .option .sink (some value) :: rest => do consume (← draft.chooseValue value) rest
  | .option .sink none :: .plain choice :: rest => do consume (← draft.choose choice) rest
  | .option .sink none :: _ => .error .misuse

/-- What the words of a command line ask for. -/
def Arguments.parse (words : List Text) : Except Exit Arguments := do
  let draft ← consume {} (← classifyAll words)
  match draft.document, draft.hasExtra with
  | some document, false => return ⟨document, draft.autocorrect, draft.logged⟩
  | _, _ => throw .misuse

end CommandLine

end NegationLint
