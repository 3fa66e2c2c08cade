/-
  JSON values.

  Documents, requests and reports are JSON.  An object is a list of fields in the order of their
  first appearance, one per key, so a printed object has a definite text.

  * `Json.lookup` — the field of a key;
  * `Json.put` — a field set: the old value is replaced where it stands, a new key goes to the end.
-/
import NegationLint.Json.Number

namespace NegationLint

/-- A JSON value. -/
inductive Json
  | null
  | bool (value : Bool)
  | num (value : Number)
  | str (value : Text)
  | arr (items : List Json)
  | obj (fields : List (Text × Json))
deriving Inhabited

namespace Json

/-- An integer as a JSON value. -/
def int (n : Int) : Json := .num (.int n)

/-- A key with its value. -/
def field (key : Text) (value : Json) : Text × Json := (key, value)

/-- The value of a key among fields. -/
def lookup (key : Text) : List (Text × Json) → Option Json
  | [] => none
  | (k, v) :: fields => if k = key then some v else lookup key fields

/-- The fields with `key` set to `value`. -/
def put (key : Text) (value : Json) : List (Text × Json) → List (Text × Json)
  | [] => [(key, value)]
  | (k, v) :: fields => if k = key then (k, value) :: fields else (k, v) :: put key value fields

/-- The value of a key of an object; nothing for any other value. -/
def get? (key : Text) : Json → Option Json
  | .obj fields => lookup key fields
  | _ => none

/-- The value is an object. -/
def isObject : Json → Bool
  | .obj _ => true
  | _ => false

theorem lookup_put (key k : Text) (value : Json) (fields : List (Text × Json)) :
    lookup k (put key value fields) = if key = k then some value else lookup k fields := by
  induction fields with
  | nil => simp only [put, lookup]
  | cons f fields ih =>
    obtain ⟨k', v⟩ := f
    simp only [put]
    split
    · rename_i h; subst h
      by_cases hk : k' = k <;> simp [lookup, hk]
    · rename_i h
      by_cases hk : k' = k
      · subst hk; simp [lookup, Ne.symm h]
      · simp [lookup, hk, ih]

end Json

end NegationLint
