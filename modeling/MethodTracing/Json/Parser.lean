import MethodTracing.Json.Basic

/-!
# Reading JSON

A strict reader: one value, blanks around it, no comments, no trailing commas, no leading zeros.
Each function takes one part off the front of the text and answers the rest.
-/

namespace MethodTracing
namespace Json

/-- White space between the parts of a JSON text. -/
def isSpace (char : Char) : Bool :=
  char == ' ' || char == '\t' || char == '\n' || char == '\r'

/-- Skip white space. -/
def skipSpace (chars : List Char) : List Char :=
  chars.dropWhile isSpace

/-- A decimal digit. -/
def isDigit (char : Char) : Bool :=
  '0' ≤ char && char ≤ '9'

/-- The unit spelled by four hexadecimal digits. -/
def unit? (first second third fourth : Char) : Option Nat :=
  Text.readHexadecimal? 0 [first, second, third, fourth]

/-- Whether a unit is the first half of a surrogate pair. -/
def isHighHalf (unit : Nat) : Bool :=
  0xD800 ≤ unit && unit ≤ 0xDBFF

/-- Whether a unit is the second half of a surrogate pair. -/
def isLowHalf (unit : Nat) : Bool :=
  0xDC00 ≤ unit && unit ≤ 0xDFFF

/-- The character of a surrogate pair. -/
def pairChar (high low : Nat) : Char :=
  Char.ofNat (0x10000 + (high - 0xD800) * 0x400 + (low - 0xDC00))

/-- The character that a short escape stands for. -/
def shortEscape? : Char → Option Char
  | '"' => some '"'
  | '\\' => some '\\'
  | '/' => some '/'
  | 'b' => some '\x08'
  | 'f' => some '\x0c'
  | 'n' => some '\n'
  | 'r' => some '\r'
  | 't' => some '\t'
  | _ => none

/-- A text that is being read. -/
structure TextPart where
  /-- Characters so far, the last one first, unless there was half of a surrogate pair. -/
  seen : Option (List Char)
  /-- The first half of a surrogate pair that was read just now. -/
  high : Option Nat

namespace TextPart

/-- Nothing is read yet. -/
def empty : TextPart := ⟨some [], none⟩

/-- Add a character that is written as itself or by a short escape. -/
def addChar (part : TextPart) (char : Char) : TextPart :=
  match part.high with
  | none => ⟨part.seen.map (char :: ·), none⟩
  | some _ => ⟨none, none⟩

/-- Add a unit that is written by its number. -/
def addUnit (part : TextPart) (unit : Nat) : TextPart :=
  match part.high with
  | some high =>
      if isLowHalf unit then ⟨part.seen.map (pairChar high unit :: ·), none⟩
      else ⟨none, if isHighHalf unit then some unit else none⟩
  | none =>
      if isLowHalf unit then ⟨none, none⟩
      else if isHighHalf unit then ⟨part.seen, some unit⟩
      else ⟨part.seen.map (Char.ofNat unit :: ·), none⟩

/-- The text, if it has no half of a surrogate pair. -/
def close (part : TextPart) : Option String :=
  match part.high with
  | none => part.seen.map fun chars => String.ofList chars.reverse
  | some _ => none

end TextPart

/-- Take the rest of a text up to its closing quote. -/
def takeText (part : TextPart) : List Char → Option (Option String × List Char)
  | [] => none
  | '"' :: rest => some (part.close, rest)
  | '\\' :: 'u' :: first :: second :: third :: fourth :: rest =>
      match unit? first second third fourth with
      | none => none
      | some unit => takeText (part.addUnit unit) rest
  | '\\' :: escape :: rest =>
      match shortEscape? escape with
      | none => none
      | some char => takeText (part.addChar char) rest
  | char :: rest =>
      if char.toNat < 0x20 || char == '\\' then none else takeText (part.addChar char) rest

/-- Take a sign off the front of a numeral. -/
def takeSign : List Char → Bool × List Char
  | '-' :: rest => (true, rest)
  | chars => (false, chars)

/-- Take the fraction of a number, if there is one. -/
def takeFraction : List Char → Option (List Char × List Char)
  | '.' :: rest =>
      match rest.takeWhile isDigit with
      | [] => none
      | digits => some (digits, rest.dropWhile isDigit)
  | chars => some ([], chars)

/-- Take the digits of an exponent. -/
def takeExponentDigits (negative : Bool) (chars : List Char) :
    Option (Option Int × List Char) :=
  match chars.takeWhile isDigit with
  | [] => none
  | digits =>
      let magnitude : Int := JsonNumber.ofDigits digits
      some (some (if negative then -magnitude else magnitude), chars.dropWhile isDigit)

/-- Take the exponent of a number, if there is one. -/
def takeExponent : List Char → Option (Option Int × List Char)
  | char :: rest =>
      if char = 'e' ∨ char = 'E' then
        match rest with
        | '+' :: digits => takeExponentDigits false digits
        | '-' :: digits => takeExponentDigits true digits
        | digits => takeExponentDigits false digits
      else some (none, char :: rest)
  | [] => some (none, [])

/-- Take a number off the front of a text. -/
def takeNumber (chars : List Char) : Option (JsonNumber × List Char) := do
  let (negative, chars) := takeSign chars
  let whole := chars.takeWhile isDigit
  if whole.isEmpty || (whole.head? == some '0' && 1 < whole.length) then none
  else
    let (fraction, chars) ← takeFraction (chars.dropWhile isDigit)
    let (exponent, chars) ← takeExponent chars
    return (⟨negative, whole, fraction, exponent⟩, chars)

mutual

/-- Take a value off the front of a text; `fuel` bounds the nesting and the number of its parts. -/
def takeValue : Nat → List Char → Option (Json × List Char)
  | 0, _ => none
  | fuel + 1, chars =>
      match skipSpace chars with
      | 'n' :: 'u' :: 'l' :: 'l' :: rest => some (null, rest)
      | 't' :: 'r' :: 'u' :: 'e' :: rest => some (boolean true, rest)
      | 'f' :: 'a' :: 'l' :: 's' :: 'e' :: rest => some (boolean false, rest)
      | '"' :: rest => (takeText .empty rest).map fun (value, rest) => (string value, rest)
      | '[' :: rest =>
          match skipSpace rest with
          | ']' :: rest => some (array [], rest)
          | _ => (takeItems fuel rest).map fun (items, rest) => (array items, rest)
      | '\x7b' :: rest =>
          match skipSpace rest with
          | '\x7d' :: rest => some (object [], rest)
          | _ => (takeMembers fuel rest).map fun (members, rest) => (object members, rest)
      | chars => (takeNumber chars).map fun (value, rest) => (number value, rest)

/-- Take the items of an array that is not empty, and its closing bracket. -/
def takeItems : Nat → List Char → Option (List Json × List Char)
  | 0, _ => none
  | fuel + 1, chars =>
      match takeValue fuel chars with
      | none => none
      | some (item, rest) =>
          match skipSpace rest with
          | ']' :: rest => some ([item], rest)
          | ',' :: rest => (takeItems fuel rest).map fun (items, rest) => (item :: items, rest)
          | _ => none

/-- Take the members of an object that is not empty, and its closing brace. -/
def takeMembers : Nat → List Char → Option (List (Option String × Json) × List Char)
  | 0, _ => none
  | fuel + 1, chars =>
      match skipSpace chars with
      | '"' :: rest =>
          match takeText .empty rest with
          | none => none
          | some (name, rest) =>
              match skipSpace rest with
              | ':' :: rest =>
                  match takeValue fuel rest with
                  | none => none
                  | some (value, rest) =>
                      match skipSpace rest with
                      | '\x7d' :: rest => some ([(name, value)], rest)
                      | ',' :: rest =>
                          (takeMembers fuel rest).map fun (members, rest) =>
                            ((name, value) :: members, rest)
                      | _ => none
              | _ => none
      | _ => none

end

/-- Read a text that is one value and nothing else but white space. -/
def parseChars (chars : List Char) : Option Json :=
  match takeValue (chars.length + 1) chars with
  | some (value, rest) => if (skipSpace rest).isEmpty then some value else none
  | none => none

/-- Read a JSON text. -/
def parse (text : String) : Option Json :=
  parseChars text.toList

end Json
end MethodTracing
