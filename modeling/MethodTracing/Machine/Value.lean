import MethodTracing.Instruction.Listing

/-!
# Values and failures of the machine

What the machine computes with, and the ways in which an instruction or a whole call can fail.
-/

namespace MethodTracing
namespace Machine

/-- A handle to an object on the heap: its place there. -/
structure ObjectId where
  /-- Number of objects made before it. -/
  index : Nat
  deriving DecidableEq

/-- A value in a local or on the operand stack. -/
inductive Value
  | int (value : Int32)
  | long (value : Int64)
  | reference (object : ObjectId)
  /-- The second half of a `long`, or a local that is not set. -/
  | top
  deriving DecidableEq

/-- Slots taken by a value. -/
def Value.width : Value → Nat
  | .long _ => 2
  | _ => 1

/-- An object on the heap. -/
inductive Object
  /-- A text. -/
  | text (content : String)
  /-- A text under construction. -/
  | builder (content : String)
  /-- The console. -/
  | console
  /-- An object of any other class. -/
  | plain (className : String)
  deriving DecidableEq

/-- A text under construction becomes longer; any other object stays as it is. -/
def Object.extend : Object → String → Object
  | .builder content, more => .builder (content ++ more)
  | object, _ => object

/-- Why an instruction fails. -/
inductive Fault
  | stackOverflow (maxStack : Nat)
  | stackUnderflow
  | localOutOfRange (slot maxLocals : Nat)
  | typeMismatch (expected : String)
  | unsupportedMember (name : String)
  | undefinedLabel (label : Label)
  /-- An exception was thrown. -/
  | thrown
  /-- There is no further instruction. -/
  | fellOffEnd
  deriving DecidableEq

/-- The wording of each fault. -/
def Fault.message : Fault → String
  | .stackOverflow maxStack =>
      "operand stack overflow (max_stack " ++ Text.decimal maxStack ++ ")"
  | .stackUnderflow => "operand stack underflow"
  | .localOutOfRange slot maxLocals =>
      "local slot " ++ Text.decimal slot ++ " out of range (max_locals " ++
        Text.decimal maxLocals ++ ")"
  | .typeMismatch expected => "type mismatch: expected " ++ expected
  | .unsupportedMember name => "unsupported member " ++ name
  | .undefinedLabel label => "undefined label " ++ label.text
  | .thrown => "uncaught exception"
  | .fellOffEnd => "execution ran off the end of the body"

/-- Why a call fails. -/
inductive CallError
  /-- The class has no method of the name. -/
  | unknownMethod (name : String)
  /-- The named method takes another number of arguments. -/
  | argumentCount (method : String) (expected actual : Nat)
  /-- An instruction of the named method fails. -/
  | fault (method : String) (index : Nat) (fault : Fault)
  /-- Calls are nested too deeply. -/
  | callDepthExceeded (limit : Nat)
  /-- The instruction budget is used up. -/
  | outOfFuel
  /-- The console cannot be written. -/
  | output (reason : String)
  deriving DecidableEq

/-- The wording of each failure. -/
def CallError.message : CallError → String
  | .unknownMethod name => "no method named " ++ name
  | .argumentCount method expected actual =>
      method ++ ": expected " ++ Text.decimal expected ++ " argument(s), got " ++
        Text.decimal actual
  | .fault method index cause =>
      method ++ " at instruction " ++ Text.decimal index ++ ": " ++ cause.message
  | .callDepthExceeded limit => "call depth limit " ++ Text.decimal limit ++ " exceeded"
  | .outOfFuel => "instruction budget exhausted"
  | .output reason => "failed to write trace output: " ++ reason

end Machine
end MethodTracing
