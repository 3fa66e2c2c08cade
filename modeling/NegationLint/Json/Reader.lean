/-
  JSON text read as a value.

  The grammar is strict JSON with three words more (`NaN`, `Infinity`, `-Infinity`), and with the
  decisions that the standard leaves open:

  * a key given twice has its last value, at the place of the first;
  * an escaped surrogate pair is one code point, an escaped half on its own is kept as it is;
  * control characters inside a string are refused, and so is a byte order mark in front;
  * an integer numeral may have so many digits and no more (`numeralTooLong`): `parse` reads up to
    `Text.digitLimit` of them, `parseWithin` as many as it is told, or any number.

  `Reader.value` reads one value and gives back what follows it.  Its first number bounds the number of
  calls: of any two nested calls at least one has consumed a code point, so twice the length of the
  text is enough and `parseWithin` hides the bound.
-/
import NegationLint.Json.Basic

namespace NegationLint

namespace Json

/-- Why a text is not read. -/
inductive ReadError
  | malformed
  | numeralTooLong
deriving DecidableEq

namespace Reader

/-- The blanks between the tokens of JSON. -/
def isBlank (c : CodePoint) : Bool := c.is ' ' || c.is '\n' || c.is '\r' || c.is '\t'

/-- The text behind its leading blanks. -/
def skipBlank (s : Text) : Text := s.dropWhile isBlank

/-! ## Strings -/

/-- The code unit of four hexadecimal digits. -/
def codeUnit? (a b c d : CodePoint) : Option Nat := do
  let a ← a.hex?
  let b ← b.hex?
  let c ← c.hex?
  let d ← d.hex?
  return ((a * 16 + b) * 16 + c) * 16 + d

/-- The code point of an escape of one letter. -/
def escaped? (c : CodePoint) : Option CodePoint :=
  if c.is '"' || c.is '\\' || c.is '/' then some c
  else if c.is 'b' then some ⟨0x08, by decide⟩
  else if c.is 'f' then some ⟨0x0C, by decide⟩
  else if c.is 'n' then some (CodePoint.ofChar '\n')
  else if c.is 'r' then some (CodePoint.ofChar '\r')
  else if c.is 't' then some (CodePoint.ofChar '\t')
  else none

/-- The second unit completes the first to one code point: a high half and a low half. -/
def pair? (high low : Nat) : Option CodePoint :=
  if 0xD800 ≤ high ∧ high ≤ 0xDBFF ∧ 0xDC00 ≤ low ∧ low ≤ 0xDFFF then
    CodePoint.ofNat? (0x10000 + (high - 0xD800) * 0x400 + (low - 0xDC00))
  else none

/-- The rest of a string up to its closing quote, behind what has been read so far (reversed).  `unit`
    is the code unit that an escape right before has given, already part of what has been read: if
    the next escape completes it to a pair, the pair takes its place. -/
def stringBody (unit : Option Nat) (read : Text) : Text → Except ReadError (Text × Text)
  | [] => .error .malformed
  | c :: rest =>
    if c.is '"' then .ok (read.reverse, rest)
    else if c.is '\\' then
      match rest with
      | [] => .error .malformed
      | e :: rest =>
        if e.is 'u' then
          match rest with
          | h₁ :: h₂ :: h₃ :: h₄ :: rest =>
            match codeUnit? h₁ h₂ h₃ h₄ with
            | none => .error .malformed
            | some next =>
              match unit.bind (pair? · next) with
              | some p => stringBody none (p :: read.tail) rest
              | none => stringBody (some next) ((CodePoint.ofNat? next).getD default :: read) rest
          | _ => .error .malformed
        else match escaped? e with
          | some p => stringBody none (p :: read) rest
          | none => .error .malformed
    else if c.val < 0x20 then .error .malformed
    else stringBody none (c :: read) rest

/-- The rest of a string behind its opening quote. -/
def string (t : Text) : Except ReadError (Text × Text) := stringBody none [] t

/-! ## Numbers -/

/-- The digits before the point: a single zero, or digits that begin with another one. -/
def integerPart : Text → Option (Text × Text)
  | [] => none
  | c :: rest =>
    if c.is '0' then some ([c], rest)
    else if c.within '1' '9' then
      some (c :: rest.takeWhile CodePoint.isDecimal, rest.dropWhile CodePoint.isDecimal)
    else none

/-- The digits behind a point; none if no digit follows the point, which then is not consumed. -/
def fraction : Text → Text × Text
  | [] => ([], [])
  | c :: rest =>
    let run := rest.takeWhile CodePoint.isDecimal
    if c.is '.' && !run.isEmpty then (run, rest.dropWhile CodePoint.isDecimal) else ([], c :: rest)

/-- A sign in front of the rest: minus, plus or none. -/
def sign : Text → Int × Text
  | [] => (1, [])
  | c :: rest => if c.is '-' then (-1, rest) else if c.is '+' then (1, rest) else (1, c :: rest)

/-- The exponent; none if no digit follows the letter, which then is not consumed. -/
def exponent : Text → Option Int × Text
  | [] => (none, [])
  | c :: rest =>
    let (s, behind) := sign rest
    let run := behind.takeWhile CodePoint.isDecimal
    if (c.is 'e' || c.is 'E') && !run.isEmpty then
      (some (s * Text.decimalValue run), behind.dropWhile CodePoint.isDecimal)
    else (none, c :: rest)

/-- A number, behind its sign. -/
def magnitude (limit : Option Nat) (s : Int) (t : Text) : Except ReadError (Number × Text) :=
  match integerPart t with
  | none => .error .malformed
  | some (whole, rest) =>
    let (places, rest) := fraction rest
    match exponent rest with
    | (none, rest) =>
      if places.isEmpty then
        if limit.any (· < whole.length) then .error .numeralTooLong
        else .ok (.int (s * Text.decimalValue whole), rest)
      else .ok (.decimal (s * Text.decimalValue (whole ++ places)) (-places.length), rest)
    | (some e, rest) => .ok (.decimal (s * Text.decimalValue (whole ++ places)) (e - places.length), rest)

/-! ## Values -/

/-- What follows `word` if the text begins with it. -/
def behind? (word t : Text) : Option Text :=
  if word.isPrefixOf t then some (t.drop word.length) else none

/-- The words that are values. -/
def words : List (Text × Json) := [("null", .null), ("true", .bool true), ("false", .bool false),
  ("NaN", .num .notANumber), ("Infinity", .num (.infinite false)),
  ("-Infinity", .num (.infinite true))]

/-- A word that is a value, or a number. -/
def scalar (limit : Option Nat) (t : Text) : Except ReadError (Json × Text) :=
  match words.findSome? fun (word, v) => (behind? word t).map (v, ·) with
  | some r => .ok r
  | none => do
    let (s, rest) : Int × Text := match t with
      | [] => (1, [])
      | c :: rest => if c.is '-' then (-1, rest) else (1, c :: rest)
    let (n, rest) ← magnitude limit s rest
    return (.num n, rest)

mutual

/-- One value, with what follows it. -/
def value (limit : Option Nat) : Nat → Text → Except ReadError (Json × Text)
  | 0, _ => .error .malformed
  | _ + 1, [] => .error .malformed
  | fuel + 1, c :: rest =>
    if c.is '"' then do
      let (t, rest) ← string rest
      return (.str t, rest)
    else if c.is '[' then
      match skipBlank rest with
      | [] => .error .malformed
      | d :: behind =>
        if d.is ']' then .ok (.arr [], behind)
        else do
          let (items, rest) ← items limit fuel (d :: behind)
          return (.arr items, rest)
    else if c.is '\x7b' then
      match skipBlank rest with
      | [] => .error .malformed
      | d :: behind =>
        if d.is '\x7d' then .ok (.obj [], behind)
        else do
          let (fields, rest) ← members limit fuel [] (d :: behind)
          return (.obj fields, rest)
    else scalar limit (c :: rest)

/-- The items of an array up to its closing bracket. -/
def items (limit : Option Nat) : Nat → Text → Except ReadError (List Json × Text)
  | 0, _ => .error .malformed
  | fuel + 1, t => do
    let (v, rest) ← value limit fuel t
    match skipBlank rest with
    | [] => .error .malformed
    | c :: rest =>
      if c.is ']' then return ([v], rest)
      else if c.is ',' then
        let (vs, rest) ← items limit fuel (skipBlank rest)
        return (v :: vs, rest)
      else .error .malformed

/-- The fields of an object up to its closing brace, behind those read so far. -/
def members (limit : Option Nat) :
    Nat → List (Text × Json) → Text → Except ReadError (List (Text × Json) × Text)
  | 0, _, _ => .error .malformed
  | _ + 1, _, [] => .error .malformed
  | fuel + 1, fields, q :: rest =>
    if !q.is '"' then .error .malformed
    else do
      let (key, rest) ← string rest
      match skipBlank rest with
      | [] => .error .malformed
      | colon :: rest =>
        if !colon.is ':' then .error .malformed
        else
          let (v, rest) ← value limit fuel (skipBlank rest)
          match skipBlank rest with
          | [] => .error .malformed
          | c :: rest =>
            if c.is '\x7d' then return (put key v fields, rest)
            else if c.is ',' then members limit fuel (put key v fields) (skipBlank rest)
            else .error .malformed

end

/-! ## One call at a time -/

section Calls

variable {limit : Option Nat} {fuel : Nat} {c : CodePoint} {t rest : Text}

theorem skipBlank_cons (h : isBlank c = false) (t : Text) : skipBlank (c :: t) = c :: t :=
  List.dropWhile_cons_of_neg (Bool.not_eq_true _ ▸ h)

/-- A bracket with items behind it is an array of these. -/
theorem value_bracket {vs : List Json} (blank : isBlank c = false) (bracket : c.is ']' = false)
    (below : items limit fuel (c :: t) = .ok (vs, rest)) :
    value limit (fuel + 1) (CodePoint.ofChar '[' :: c :: t) = .ok (.arr vs, rest) := by
  rw [value, skipBlank_cons blank]
  simp only [bracket, below]
  rfl

/-- An item with a bracket behind it is the last one. -/
theorem items_last {v : Json} (first : value limit fuel t = .ok (v, CodePoint.ofChar ']' :: rest)) :
    items limit (fuel + 1) t = .ok ([v], rest) := by
  rw [items, first]
  rfl

end Calls

end Reader

/-- The value of a whole text: one value, with nothing but blanks around it.  Integers have so many digits
    at most, or any number of them. -/
def parseWithin (limit : Option Nat) (t : Text) : Except ReadError Json := do
  let (v, rest) ← Reader.value limit (2 * t.length + 2) (Reader.skipBlank t)
  if (Reader.skipBlank rest).isEmpty then return v else throw .malformed

/-- The value of a whole text. -/
def parse (t : Text) : Except ReadError Json := parseWithin (some Text.digitLimit) t

end Json

end NegationLint
