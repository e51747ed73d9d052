/-!
# Numerals

Decimal and hexadecimal numerals.  Reading goes from left to right and stops at the first fault,
so a text with two faults is refused for the one that comes first.
-/

namespace MethodTracing
namespace Text

/-- The decimal numeral of an integer, with a minus sign only where it is negative. -/
def decimal : Int → String
  | .ofNat value => Nat.repr value
  | .negSucc value => "-" ++ Nat.repr (value + 1)

/-- The hexadecimal numeral of a natural number, in lower case and without leading zeros. -/
def hexadecimal (value : Nat) : String :=
  String.ofList (Nat.toDigits 16 value)

/-- Why a text is not a numeral of the wanted range. -/
inductive NumeralError
  /-- There is no character at all. -/
  | empty
  /-- A character is no digit, or there is a sign without digits. -/
  | invalidDigit
  /-- The value exceeds the upper bound. -/
  | tooLarge
  /-- The value falls below the lower bound. -/
  | tooSmall
  deriving DecidableEq

/-- The wording of each cause. -/
def NumeralError.message : NumeralError → String
  | .empty => "cannot parse integer from empty string"
  | .invalidDigit => "invalid digit found in string"
  | .tooLarge => "number too large to fit in target type"
  | .tooSmall => "number too small to fit in target type"

/-- The value of an ASCII decimal digit. -/
def digitValue? (char : Char) : Option Nat :=
  if '0' ≤ char ∧ char ≤ '9' then some (char.toNat - '0'.toNat) else none

/-- Read digits after the magnitude `value`, never passing `limit`. -/
def readMagnitude (limit : Nat) (overflow : NumeralError) (value : Nat) :
    List Char → Except NumeralError Nat
  | [] => .ok value
  | char :: rest =>
      match digitValue? char with
      | none => .error .invalidDigit
      | some digit =>
          if limit < value * 10 + digit then .error overflow
          else readMagnitude limit overflow (value * 10 + digit) rest

/-- Read a numeral with an optional sign whose value lies between `-below` and `above`. -/
def readInteger (below above : Nat) : List Char → Except NumeralError Int
  | [] => .error .empty
  | ['+'] => .error .invalidDigit
  | ['-'] => .error .invalidDigit
  | '+' :: digits => (readMagnitude above .tooLarge 0 digits).map Int.ofNat
  | '-' :: digits => (readMagnitude below .tooSmall 0 digits).map fun magnitude => -(magnitude : Int)
  | digits => (readMagnitude above .tooLarge 0 digits).map Int.ofNat

/-- The value of a hexadecimal digit. -/
def hexValue? (char : Char) : Option Nat :=
  if '0' ≤ char ∧ char ≤ '9' then some (char.toNat - '0'.toNat)
  else if 'a' ≤ char ∧ char ≤ 'f' then some (char.toNat - 'a'.toNat + 10)
  else if 'A' ≤ char ∧ char ≤ 'F' then some (char.toNat - 'A'.toNat + 10)
  else none

/-- Read hexadecimal digits after the value `value`. -/
def readHexadecimal? (value : Nat) : List Char → Option Nat
  | [] => some value
  | char :: rest =>
      match hexValue? char with
      | none => none
      | some digit => readHexadecimal? (value * 16 + digit) rest

end Text
end MethodTracing
