/-
  Contracts on JSON values.

  A `Schema` says which JSON values may cross an interface.  It is the part of JSON Schema (draft 7)
  that the contracts of this library speak, kept as data: `accepts` decides a value, `toJson` writes
  the schema out for other tools.

  * A whole number may be written with a point: `1.0` is an integer, `true` is not.
  * Lengths count code points.
  * A record constrains the properties it names where they are present; `required` says which must
    be, and a closed record refuses every other property.
-/
import NegationLint.Json.Basic

namespace NegationLint

/-- The kinds of JSON values, as schemas name them. -/
inductive JsonKind
  | object | array | string | number | boolean | null
deriving DecidableEq

namespace JsonKind

/-- The word for a kind. -/
def name : JsonKind → Text
  | object => "object"
  | array => "array"
  | string => "string"
  | number => "number"
  | boolean => "boolean"
  | null => "null"

/-- The kind of a value. -/
def of : Json → JsonKind
  | .null => null
  | .bool _ => boolean
  | .num _ => number
  | .str _ => string
  | .arr _ => array
  | .obj _ => object

end JsonKind

/-- A contract on a JSON value. -/
inductive Schema
  /-- a string of at least and at most so many code points -/
  | text (least : Nat) (most : Option Nat)
  | boolean
  /-- a whole number not below a bound -/
  | integer (least : Int)
  /-- exactly this string -/
  | const (word : Text)
  /-- one of these strings -/
  | oneOf (words : List Text)
  /-- any value of one of these kinds -/
  | ofKind (kinds : List JsonKind)
  | list (items : Schema)
  | record (required : List Text) (properties : List (Text × Schema)) (isOpen : Bool)

namespace Schema

/-- Any string. -/
def anyText : Schema := .text 0 none

mutual

/-- The value keeps the contract. -/
def accepts : Schema → Json → Bool
  | .text least most, v => match v with
    | .str t => least ≤ t.length && most.all (t.length ≤ ·)
    | _ => false
  | .boolean, v => match v with
    | .bool _ => true
    | _ => false
  | .integer least, v => match v with
    | .num n => n.integer?.any (least ≤ ·)
    | _ => false
  | .const word, v => match v with
    | .str t => t = word
    | _ => false
  | .oneOf words, v => match v with
    | .str t => words.contains t
    | _ => false
  | .ofKind kinds, v => kinds.contains (JsonKind.of v)
  | .list items, v => match v with
    | .arr vs => vs.all (items.accepts ·)
    | _ => false
  | .record required properties isOpen, v => match v with
    | .obj fields =>
      required.all (fun key => (Json.lookup key fields).isSome)
        && acceptsProperties properties fields
        && (isOpen || fields.all fun (key, _) => (properties.map Prod.fst).contains key)
    | _ => false

/-- Every property that is present keeps its contract. -/
def acceptsProperties : List (Text × Schema) → List (Text × Json) → Bool
  | [], _ => true
  | (key, schema) :: properties, fields =>
    (match Json.lookup key fields with
      | some v => schema.accepts v
      | none => true) && acceptsProperties properties fields

end

/-- The keyword for a type. -/
def typeField (word : Text) : Text × Json := Json.field "type" (.str word)

mutual

/-- The keywords of a schema. -/
def keywords : Schema → List (Text × Json)
  | .text least most =>
    typeField "string"
      :: ((if least = 0 then [] else [Json.field "minLength" (.int least)])
        ++ most.toList.map fun (n : Nat) => Json.field "maxLength" (.int n))
  | .boolean => [typeField "boolean"]
  | .integer least => [typeField "integer", ("minimum", Json.int least)]
  | .const word => [("const", .str word)]
  | .oneOf words => [("enum", .arr (words.map .str))]
  | .ofKind kinds => [("type", .arr (kinds.map fun k => .str k.name))]
  | .list items => [typeField "array", ("items", .obj items.keywords)]
  | .record required properties isOpen =>
    [typeField "object", ("required", .arr (required.map .str)),
      ("properties", .obj (propertyFields properties)), ("additionalProperties", .bool isOpen)]

/-- The properties of a record with their schemas. -/
def propertyFields : List (Text × Schema) → List (Text × Json)
  | [] => []
  | (key, schema) :: properties => (key, .obj schema.keywords) :: propertyFields properties

end

end Schema

end NegationLint
