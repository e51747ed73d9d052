import MethodTracing.Json.Basic

/-!
# Holdable values

A reader that does not know yet what a value is for has to hold it.  It can do so when the nesting
is limited, every text has characters, and every number lies in the range of 64-bit floats.

A number is converted in two roundings.  Digits are taken as long as they fit into a 64-bit word,
the others only count for the exponent; then the rounded digits are multiplied by the rounded power
of ten.
-/

namespace MethodTracing
namespace JsonNumber

/-- The largest number of a 64-bit word. -/
def wordLimit : Nat := 0xFFFFFFFFFFFFFFFF

/-- Take digits after the value `word` as long as the word can hold them; the answer is the word,
the number of digits taken, and the digits left. -/
def takeWord (word taken : Nat) : List Char → Nat × Nat × List Char
  | [] => (word, taken, [])
  | digit :: rest =>
      let more := word * 10 + (digit.toNat - '0'.toNat)
      if wordLimit < more then (word, taken, digit :: rest) else takeWord more (taken + 1) rest

/-- A natural number rounded to 53 significant bits, a tie going to the even neighbour. -/
def roundSignificand (value : Nat) : Nat :=
  let excess := value.log2 + 1 - 53
  let kept := value >>> excess
  let unit := 1 <<< excess
  let lost := value % unit
  let half := unit / 2
  if excess = 0 then value
  else if half < lost ∨ (lost = half ∧ kept % 2 = 1) then (kept + 1) <<< excess
  else kept <<< excess

/-- Half a unit above the largest finite 64-bit float. -/
def floatCeiling : Nat := (1 <<< 1024) - (1 <<< 970)

/-- Whether the conversion of a number to a 64-bit float stays finite. -/
def isFinite (number : JsonNumber) : Bool :=
  let (word, _, dropped) := takeWord 0 0 number.whole
  let (word, taken, _) := takeWord word 0 number.fraction
  let exponent : Int := number.exponent.getD 0 + dropped.length - taken
  if word = 0 ∨ exponent < 0 then true
  else if 308 < exponent then false
  else
    decide (roundSignificand word * roundSignificand (Nat.pow 10 exponent.toNat) < floatCeiling)

end JsonNumber

namespace Json

/-- The nesting that a reader goes into. -/
def nestingLimit : Nat := 127

mutual

/-- Whether a value nested at most `room` deep can be held. -/
def isHoldable : Nat → Json → Bool
  | _, null => true
  | _, boolean _ => true
  | _, number value => value.isFinite
  | _, string value => value.isSome
  | room, array items => 0 < room && itemsHoldable (room - 1) items
  | room, object members => 0 < room && membersHoldable (room - 1) members

/-- Whether items can be held. -/
def itemsHoldable : Nat → List Json → Bool
  | _, [] => true
  | room, item :: rest => isHoldable room item && itemsHoldable room rest

/-- Whether members can be held. -/
def membersHoldable : Nat → List (Option String × Json) → Bool
  | _, [] => true
  | room, (name, value) :: rest => name.isSome && isHoldable room value && membersHoldable room rest

end

end Json
end MethodTracing
