import MethodTracing.Instruction.Basic

/-!
# Static effects of instructions

What an instruction does to the operand stack and to the locals, counted in slots and known
without running it.
-/

namespace MethodTracing

/-- Slots that an instruction takes off the operand stack and then puts on it. -/
structure StackEffect where
  /-- Slots taken off. -/
  pops : Nat
  /-- Slots put on afterwards. -/
  pushes : Nat
  deriving DecidableEq

/-- How an instruction uses a local. -/
inductive LocalUse
  | read
  | write
  | readWrite
  deriving DecidableEq

/-- An access to the locals. -/
structure LocalAccess where
  /-- First slot accessed. -/
  slot : UInt16
  /-- Number of slots accessed. -/
  width : Nat
  /-- Whether the slots are read or written. -/
  use : LocalUse
  deriving DecidableEq

/-- One past the highest slot accessed. -/
def LocalAccess.stop (access : LocalAccess) : Nat :=
  access.slot.toNat + access.width

/-- Slots of the arguments of a call, the receiver included, up to the ceiling. -/
def CallKind.argumentSlots (call : CallKind) (type : MethodType) : Nat :=
  min slotCeiling (type.parameterSlots + call.receiverSlots)

namespace Instruction

/-- The effect of an instruction on the operand stack. -/
def effect : Instruction → StackEffect
  | label _ | nop | iinc _ _ | goto _ => ⟨0, 0⟩
  | iconst _ | ldc _ | new _ => ⟨0, 1⟩
  | lconst _ => ⟨0, 2⟩
  | load kind _ => ⟨0, kind.width⟩
  | store kind _ => ⟨kind.width, 0⟩
  | intArithmetic _ => ⟨2, 1⟩
  | longArithmetic _ => ⟨4, 2⟩
  | dup => ⟨1, 2⟩
  | pop => ⟨1, 0⟩
  | pop2 => ⟨2, 0⟩
  | swap => ⟨2, 2⟩
  | branchZero _ _ => ⟨1, 0⟩
  | branchCompare _ _ => ⟨2, 0⟩
  | getStatic field => ⟨0, field.type.width⟩
  | invoke call method => ⟨call.argumentSlots method.type, method.type.resultSlots⟩
  | ret none => ⟨0, 0⟩
  | ret (some kind) => ⟨kind.width, 0⟩
  | athrow => ⟨1, 0⟩

/-- The access of an instruction to the locals. -/
def access? : Instruction → Option LocalAccess
  | load kind slot => some ⟨slot, kind.width, .read⟩
  | store kind slot => some ⟨slot, kind.width, .write⟩
  | iinc slot _ => some ⟨slot, 1, .readWrite⟩
  | _ => none

end Instruction
end MethodTracing
