import MethodTracing.Instruction.Basic
import MethodTracing.Text.Quoted

/-!
# Listings

The one-line form of each instruction, as listings show it.
-/

namespace MethodTracing

/-- Name of a label in a listing. -/
def Label.text (label : Label) : String :=
  "L" ++ Text.decimal label.number.toNat

/-- Name of a comparison. -/
def Condition.name : Condition → String
  | .eq => "eq"
  | .ne => "ne"
  | .lt => "lt"
  | .ge => "ge"
  | .gt => "gt"
  | .le => "le"

/-- Letter by which an instruction name begins for a kind of value. -/
def ValueKind.letter : ValueKind → String
  | .int => "i"
  | .long => "l"
  | .reference => "a"

/-- Name of an operation, without the letter of its operands. -/
def ArithmeticOp.name : ArithmeticOp → String
  | .add => "add"
  | .sub => "sub"
  | .mul => "mul"

/-- Name of a call instruction in a listing. -/
def CallKind.mnemonic : CallKind → String
  | .direct => "invokestatic"
  | .virtual => "invokevirtual"
  | .special => "invokespecial"

/-- Name of a return instruction. -/
def returnName : Option ValueKind → String
  | none => "return"
  | some kind => kind.letter ++ "return"

/-- A method as listings and messages name it. -/
def MethodRef.text (method : MethodRef) : String :=
  method.owner ++ "." ++ method.name ++ method.type.text

namespace Instruction

/-- The line that a listing shows for an instruction. -/
def listing : Instruction → String
  | label target => target.text ++ ":"
  | nop => "nop"
  | iconst value => "iconst " ++ Text.decimal value.toInt
  | lconst value => "lconst " ++ Text.decimal value.toInt
  | ldc text => "ldc " ++ Text.quote text
  | load kind slot => kind.letter ++ "load " ++ Text.decimal slot.toNat
  | store kind slot => kind.letter ++ "store " ++ Text.decimal slot.toNat
  | iinc slot delta => "iinc " ++ Text.decimal slot.toNat ++ " " ++ Text.decimal delta.toInt
  | intArithmetic op => "i" ++ op.name
  | longArithmetic op => "l" ++ op.name
  | dup => "dup"
  | pop => "pop"
  | pop2 => "pop2"
  | swap => "swap"
  | branchZero condition target => "if" ++ condition.name ++ " " ++ target.text
  | branchCompare condition target => "if_icmp" ++ condition.name ++ " " ++ target.text
  | goto target => "goto " ++ target.text
  | getStatic field => "getstatic " ++ field.owner ++ "." ++ field.name ++ " " ++ field.type.text
  | new className => "new " ++ className
  | invoke call method => call.mnemonic ++ " " ++ method.text
  | ret kind => returnName kind
  | athrow => "athrow"

end Instruction
end MethodTracing
