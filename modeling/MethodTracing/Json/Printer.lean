import MethodTracing.Json.Basic

/-!
# Writing JSON

Two forms: a compact one on a single line, and an indented one with a line for every item and
member.
-/

namespace MethodTracing
namespace Json

/-- One character of a text. -/
def escapeChar (char : Char) : List Char :=
  if char = '"' then ['\\', '"']
  else if char = '\\' then ['\\', '\\']
  else if char = '\x08' then ['\\', 'b']
  else if char = '\t' then ['\\', 't']
  else if char = '\n' then ['\\', 'n']
  else if char = '\x0c' then ['\\', 'f']
  else if char = '\r' then ['\\', 'r']
  else if char.toNat < 0x20 then
    ['\\', 'u', '0', '0', (Nat.digitChar (char.toNat / 16)), (Nat.digitChar (char.toNat % 16))]
  else [char]

/-- A text in quotes.  A text without characters of its own is written as a replacement. -/
def textChars (value : Option String) : List Char :=
  '"' :: (value.getD "\ufffd").toList.flatMap escapeChar ++ ['"']

/-- A number as it was spelled. -/
def numberChars (number : JsonNumber) : List Char :=
  (if number.negative then ['-'] else []) ++ number.whole ++
    (if number.fraction = [] then [] else '.' :: number.fraction) ++
    match number.exponent with
    | none => []
    | some exponent => 'e' :: (Text.decimal exponent).toList

mutual

/-- A value on a single line. -/
def compactChars : Json → List Char
  | null => "null".toList
  | boolean true => "true".toList
  | boolean false => "false".toList
  | number value => numberChars value
  | string value => textChars value
  | array items => '[' :: compactItems items ++ [']']
  | object members => '\x7b' :: compactMembers members ++ ['\x7d']

/-- Items on a single line. -/
def compactItems : List Json → List Char
  | [] => []
  | [item] => compactChars item
  | item :: rest => compactChars item ++ ',' :: compactItems rest

/-- Members on a single line. -/
def compactMembers : List (Option String × Json) → List Char
  | [] => []
  | [(name, value)] => textChars name ++ ':' :: compactChars value
  | (name, value) :: rest =>
      textChars name ++ ':' :: compactChars value ++ ',' :: compactMembers rest

end

/-- A new line indented by the given number of levels. -/
def newLine (level : Nat) : List Char :=
  '\n' :: List.replicate (2 * level) ' '

mutual

/-- A value indented by the given number of levels; its first line is not. -/
def indentedChars (level : Nat) : Json → List Char
  | null => "null".toList
  | boolean true => "true".toList
  | boolean false => "false".toList
  | number value => numberChars value
  | string value => textChars value
  | array [] => ['[', ']']
  | array (item :: rest) =>
      '[' :: newLine (level + 1) ++ indentedItems (level + 1) (item :: rest) ++ newLine level ++ [']']
  | object [] => ['\x7b', '\x7d']
  | object (member :: rest) =>
      '\x7b' :: newLine (level + 1) ++ indentedMembers (level + 1) (member :: rest) ++ newLine level ++
        ['\x7d']

/-- Items on lines of their own. -/
def indentedItems (level : Nat) : List Json → List Char
  | [] => []
  | [item] => indentedChars level item
  | item :: rest => indentedChars level item ++ ',' :: newLine level ++ indentedItems level rest

/-- Members on lines of their own. -/
def indentedMembers (level : Nat) : List (Option String × Json) → List Char
  | [] => []
  | [(name, value)] => textChars name ++ ':' :: ' ' :: indentedChars level value
  | (name, value) :: rest =>
      textChars name ++ ':' :: ' ' :: indentedChars level value ++ ',' :: newLine level ++
        indentedMembers level rest

end

/-- The compact form of a value. -/
def compact (value : Json) : String :=
  String.ofList value.compactChars

/-- The indented form of a value. -/
def indented (value : Json) : String :=
  String.ofList (value.indentedChars 0)

end Json
end MethodTracing
