/-
  The rule on enum declarations.

  Every enum value gets a negated scope whose name is the value's behind `not_`.  A value that
  itself begins with `not_` lets the generated scope shadow it:

      enum status: { active: 0, not_active: 1 }      offense
      enum status: { active: 0, inactive: 1 }        fine

  1. A DECLARATION is a call of `enum` without receiver whose only argument is a hash
     (`enumEntries?`); its entries are what the rule looks at.
  2. An offense stands at the value behind a negated key, both for an entry itself and for the
     entries of a hash that is the entry's value (`inspect`).
  3. A list of values is an array that is the entry's value.  It has one offense, at the array
     itself and under its first negated element.
  4. No node has two findings in one inspection: the first stands.
  5. A finding at an array can be corrected: the array becomes a hash from each element to its
     index (`indexedHash`).
-/
import NegationLint.Correction
import NegationLint.Finding
import NegationLint.Ruby.Symbol

namespace NegationLint

namespace EnumRule

/-- How the name of a negated value begins. -/
def negation : Text := "not_"

/-- The name begins with `not_`. -/
def isNegated (name : Text) : Bool := negation.isPrefixOf name

/-! ## Declarations -/

/-- The entries of an enum declaration; none if the node is no declaration. -/
def enumEntries? (l : Located) : Option (List Located) :=
  match l.node with
  | .send _ none method [.hash _ entries] =>
    if method = "enum" then some (Located.siblings (l.position ++ [0]) 0 entries) else none
  | _ => none

/-! ## Findings -/

/-- The findings with one more at `anchor`, unless there is one at that position already. -/
def record (severity : Text) (anchor : Located) (name : Text) (found : List Finding) :
    List Finding :=
  if found.any (·.anchor.position = anchor.position) then found
  else found ++ [⟨anchor, name, severity⟩]

/-- The key and the value of a hash entry, the value at its position. -/
def entry? (l : Located) : Option (Node × Located) :=
  match l.node with
  | .pair _ key value => some (key, ⟨l.position ++ [1], value⟩)
  | _ => none

/-- The findings after the key of an entry has been looked at. -/
def checkKey (severity : Text) (found : List Finding) (l : Located) : List Finding :=
  match entry? l with
  | some (key, value) =>
    if isNegated key.literalName then record severity value key.literalName found else found
  | none => found

/-- The findings after an entry's value has been looked into. -/
def checkValue (severity : Text) (found : List Finding) (value : Located) : List Finding :=
  match value.node with
  | .hash _ entries => (Located.siblings value.position 0 entries).foldl (checkKey severity) found
  | .array _ elements =>
    match elements.find? (isNegated ·.literalName) with
    | some element => record severity value element.literalName found
    | none => found
  | _ => found

/-- The findings after one more node of the declaration's hash.  What is no entry is passed over. -/
def checkEntry (severity : Text) (found : List Finding) (l : Located) : List Finding :=
  match entry? l with
  | some (_, value) => checkValue severity (checkKey severity found l) value
  | none => found

/-- The findings at a declaration's entries, in order. -/
def inspect (severity : Text) (entries : List Located) : List Finding :=
  entries.foldl (checkEntry severity) []

/-- The findings at one node: those of a declaration's entries, none at any other node. -/
def findingsAt (severity : Text) (l : Located) : List Finding :=
  match enumEntries? l with
  | some entries => inspect severity entries
  | none => []

/-- The findings of a whole tree, in pre-order of the declarations. -/
def findings (severity : Text) (root : Node) : List Finding := root.walk.flatMap (findingsAt severity)

/-! ## Corrections -/

/-- An array element as a hash key. -/
def renderElement : Node → Text
  | .str _ value => Ruby.dump value
  | .sym _ value => Ruby.inspectSymbol value
  | n => n.source

/-- Elements with their indices from `first`, as the inside of a hash. -/
def renderEntries (first : Nat) : List Node → Text
  | [] => []
  | [n] => renderElement n ++ ((" => " : Text) ++ Text.ofNat first)
  | n :: ns =>
    renderElement n ++ ((" => " : Text) ++ (Text.ofNat first ++ ((", " : Text) ++ renderEntries (first + 1) ns)))

theorem renderEntries_cons_cons (first : Nat) (n m : Node) (ns : List Node) :
    renderEntries first (n :: m :: ns) = renderElement n ++ ((" => " : Text)
      ++ (Text.ofNat first ++ ((", " : Text) ++ renderEntries (first + 1) (m :: ns)))) := rfl

/-- An array of these elements as a hash from each element to its index. -/
def indexedHash (elements : List Node) : Text :=
  CodePoint.ofChar '\x7b' :: (renderEntries 0 elements ++ [CodePoint.ofChar '\x7d'])

/-- The correction of a finding, if its anchor is an array. -/
def autocorrect (f : Finding) : Option Correction :=
  match f.anchor.node with
  | .array site elements => some ⟨site.span, indexedHash elements⟩
  | _ => none

end EnumRule

end NegationLint
