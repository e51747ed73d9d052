import MethodTracing.Descriptor.Basic

/-!
# Instructions

Stack code of method bodies.  Branches name symbolic labels, and a label stands in the code as an
instruction of its own, so inserting code anywhere leaves every branch intact.
-/

namespace MethodTracing

/-- A symbolic branch target. -/
structure Label where
  /-- Number of the label. -/
  number : UInt32
  deriving DecidableEq, Hashable

/-- A static field of a class. -/
structure FieldRef where
  /-- Name of the declaring class. -/
  owner : String
  /-- Name of the field. -/
  name : String
  /-- Type of the field. -/
  type : FieldType
  deriving DecidableEq

/-- A method of a class, as a call names it. -/
structure MethodRef where
  /-- Name of the declaring class. -/
  owner : String
  /-- Name of the method. -/
  name : String
  /-- Type of the method. -/
  type : MethodType
  deriving DecidableEq

/-- A comparison of two integers. -/
inductive Condition
  | eq
  | ne
  | lt
  | ge
  | gt
  | le
  deriving DecidableEq

/-- Whether the comparison holds between two integers. -/
def Condition.holds (left right : Int32) : Condition → Bool
  | .eq => left == right
  | .ne => left != right
  | .lt => left < right
  | .ge => right ≤ left
  | .gt => right < left
  | .le => left ≤ right

/-- The kinds of value that loads, stores and returns handle. -/
inductive ValueKind
  | int
  | long
  | reference
  deriving DecidableEq

/-- Slots taken by a value of the kind. -/
def ValueKind.width : ValueKind → Nat
  | .long => 2
  | _ => 1

theorem ValueKind.width_pos (kind : ValueKind) : 0 < kind.width := by
  cases kind <;> simp [width]

/-- Arithmetic on two integers. -/
inductive ArithmeticOp
  | add
  | sub
  | mul
  deriving DecidableEq

/-- The three ways to call a method. -/
inductive CallKind
  /-- Without a receiver. -/
  | direct
  /-- On a receiver. -/
  | virtual
  /-- On a fresh object that is to be initialized. -/
  | special
  deriving DecidableEq

/-- Slots taken by the receiver of a call. -/
def CallKind.receiverSlots : CallKind → Nat
  | .direct => 0
  | _ => 1

/-- An instruction of a method body. -/
inductive Instruction
  /-- Marks a branch target. -/
  | label (target : Label)
  | nop
  /-- Pushes an `int`. -/
  | iconst (value : Int32)
  /-- Pushes a `long`. -/
  | lconst (value : Int64)
  /-- Pushes the shared object of a constant text. -/
  | ldc (text : String)
  /-- Pushes the value of a local. -/
  | load (kind : ValueKind) (slot : UInt16)
  /-- Pops a value into a local. -/
  | store (kind : ValueKind) (slot : UInt16)
  /-- Adds to an `int` local. -/
  | iinc (slot : UInt16) (delta : Int16)
  /-- Arithmetic on two `int` operands. -/
  | intArithmetic (op : ArithmeticOp)
  /-- Arithmetic on two `long` operands. -/
  | longArithmetic (op : ArithmeticOp)
  | dup
  | pop
  | pop2
  | swap
  /-- Branches when an `int` compares with zero. -/
  | branchZero (condition : Condition) (target : Label)
  /-- Branches when two `int` operands compare. -/
  | branchCompare (condition : Condition) (target : Label)
  | goto (target : Label)
  /-- Pushes the value of a static field. -/
  | getStatic (field : FieldRef)
  /-- Pushes a fresh object of a class. -/
  | new (className : String)
  /-- Calls a method. -/
  | invoke (call : CallKind) (method : MethodRef)
  /-- Ends the method normally, with a value of the given kind if there is one. -/
  | ret (kind : Option ValueKind)
  /-- Ends the method with an exception. -/
  | athrow
  deriving DecidableEq

namespace Instruction

/-- The label that the instruction marks. -/
def marked? : Instruction → Option Label
  | label target => some target
  | _ => none

/-- Whether the instruction ends a method normally. -/
def isReturn : Instruction → Bool
  | ret _ => true
  | _ => false

/-- Whether control never passes from the instruction to the next one. -/
def endsBlock : Instruction → Bool
  | ret _ | athrow | goto _ => true
  | _ => false

/-- The target of a branch. -/
def branchTarget? : Instruction → Option Label
  | branchZero _ target | branchCompare _ target | goto target => some target
  | _ => none

/-- Whether control passes from the instruction either to its target or to the next one. -/
def isConditional : Instruction → Bool
  | branchZero _ _ | branchCompare _ _ => true
  | _ => false

theorem endsBlock_of_isReturn {instruction : Instruction} (returns : instruction.isReturn) :
    instruction.endsBlock := by
  cases instruction <;> simp_all [isReturn, endsBlock]

end Instruction
end MethodTracing
