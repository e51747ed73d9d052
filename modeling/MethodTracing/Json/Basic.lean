import MethodTracing.Text.Numeral

/-!
# JSON values

Values as a JSON text spells them: numbers keep their digits and objects keep all members in
order.  A text with half of a surrogate pair is well formed but names no characters.
-/

namespace MethodTracing

/-- A number, by its spelling. -/
structure JsonNumber where
  /-- Whether a minus sign leads. -/
  negative : Bool
  /-- Digits before the point. -/
  whole : List Char
  /-- Digits after the point; empty when there is no point. -/
  fraction : List Char
  /-- The exponent, if one is written. -/
  exponent : Option Int
  deriving DecidableEq

/-- A JSON value. -/
inductive Json
  | null
  | boolean (value : Bool)
  | number (value : JsonNumber)
  /-- A text; `none` when it holds half of a surrogate pair. -/
  | string (value : Option String)
  | array (items : List Json)
  /-- Members in order, with repeated names; a name is `none` as for a text. -/
  | object (members : List (Option String × Json))

namespace JsonNumber

/-- The value of decimal digits. -/
def ofDigits (digits : List Char) : Nat :=
  digits.foldl (fun value digit => value * 10 + (digit.toNat - '0'.toNat)) 0

/-- The number of an integer. -/
def ofInt (value : Int) : JsonNumber :=
  ⟨value < 0, (Nat.repr value.natAbs).toList, [], none⟩

/-- The integer that a number spells.  A number with a point or an exponent is none, and neither is
a negative zero. -/
def toInt? (number : JsonNumber) : Option Int :=
  if number.fraction ≠ [] ∨ number.exponent ≠ none then none
  else
    let magnitude := ofDigits number.whole
    if number.negative then
      if magnitude = 0 then none else some (-(magnitude : Int))
    else some magnitude

end JsonNumber

namespace Json

/-- A text as a value. -/
def text (content : String) : Json :=
  .string (some content)

/-- An integer as a value. -/
def int (value : Int) : Json :=
  .number (.ofInt value)

/-- An object with the given members. -/
def record (members : List (String × Json)) : Json :=
  .object (members.map fun (name, value) => (some name, value))

/-- A list of texts as a value. -/
def texts (contents : List String) : Json :=
  .array (contents.map text)

/-- A value, or null when there is none. -/
def ofOption : Option Json → Json
  | none => null
  | some value => value

/-- The characters of a text. -/
def text? : Json → Option String
  | string value => value
  | _ => none

/-- The integer that a value spells, if it lies within bounds. -/
def int? (low high : Int) : Json → Option Int
  | number value => do
      let value ← value.toInt?
      if low ≤ value ∧ value ≤ high then some value else none
  | _ => none

/-- The items of an array. -/
def items? : Json → Option (List Json)
  | array items => some items
  | _ => none

end Json
end MethodTracing
