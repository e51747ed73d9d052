import MethodTracing.Machine.Value
import MethodTracing.Text.Blank

/-!
# Call arguments

Arguments of a call as they are typed: `42` is an `int`, `42L` a `long`.
-/

namespace MethodTracing
namespace CommandLine

/-- A text that was refused as an argument. -/
structure ArgumentError where
  /-- Whether the text ends as a `long` does. -/
  wide : Bool
  /-- The refused text without blanks around it. -/
  text : String
  /-- What is wrong with its digits. -/
  cause : Text.NumeralError
  deriving DecidableEq

/-- The message for a refused argument. -/
def ArgumentError.message (error : ArgumentError) : String :=
  (if error.wide then "invalid long '" else "invalid int '") ++ error.text ++ "': " ++
    error.cause.message

/-- Whether a character marks a `long`. -/
def isLongMark (char : Char) : Bool :=
  char == 'L' || char == 'l'

/-- Read an argument whose blanks are removed. -/
def readArgumentChars (chars : List Char) : Except ArgumentError Machine.Value :=
  if chars.getLast?.any isLongMark then
    match Text.readInteger 0x8000000000000000 0x7FFFFFFFFFFFFFFF chars.dropLast with
    | .error cause => .error ⟨true, String.ofList chars, cause⟩
    | .ok value => .ok (.long (.ofInt value))
  else
    match Text.readInteger 0x80000000 0x7FFFFFFF chars with
    | .error cause => .error ⟨false, String.ofList chars, cause⟩
    | .ok value => .ok (.int (.ofInt value))

/-- Read an argument of a call. -/
def readArgument (text : String) : Except ArgumentError Machine.Value :=
  readArgumentChars (Text.trimChars text.toList)

end CommandLine
end MethodTracing
