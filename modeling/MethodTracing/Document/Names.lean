import MethodTracing.Instruction.Listing
import MethodTracing.Method

/-!
# Names in documents

The names by which class documents call instructions and kinds of methods.
-/

namespace MethodTracing

/-- Name of a kind of call in documents. -/
def CallKind.tag : CallKind → String
  | .direct => "invoke_static"
  | .virtual => "invoke_virtual"
  | .special => "invoke_special"

/-- Name of a kind of method in documents. -/
def MethodKind.tag : MethodKind → String
  | .function => "function"
  | .constructor => "constructor"
  | .staticInitializer => "static_initializer"
  | .synthetic => "synthetic"

/-- All kinds of methods. -/
def MethodKind.all : List MethodKind :=
  [.function, .constructor, .staticInitializer, .synthetic]

/-- All comparisons. -/
def Condition.all : List Condition :=
  [.eq, .ne, .lt, .ge, .gt, .le]

namespace Instruction

/-- Name of an instruction in documents. -/
def tag : Instruction → String
  | label _ => "label"
  | nop => "nop"
  | iconst _ => "iconst"
  | lconst _ => "lconst"
  | ldc _ => "ldc"
  | load kind _ => kind.letter ++ "load"
  | store kind _ => kind.letter ++ "store"
  | iinc _ _ => "iinc"
  | intArithmetic op => "i" ++ op.name
  | longArithmetic op => "l" ++ op.name
  | dup => "dup"
  | pop => "pop"
  | pop2 => "pop2"
  | swap => "swap"
  | branchZero _ _ => "if"
  | branchCompare _ _ => "if_icmp"
  | goto _ => "goto"
  | getStatic _ => "get_static"
  | new _ => "new"
  | invoke call _ => call.tag
  | ret kind => returnName kind
  | athrow => "athrow"

/-- The instructions that are told by their name alone. -/
def plain : List Instruction :=
  [nop, intArithmetic .add, intArithmetic .sub, intArithmetic .mul, longArithmetic .add,
    longArithmetic .sub, longArithmetic .mul, dup, pop, pop2, swap, ret none, ret (some .int),
    ret (some .long), ret (some .reference), athrow]

end Instruction
end MethodTracing
