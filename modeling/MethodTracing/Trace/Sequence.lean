import MethodTracing.Instruction.Effect

/-!
# Straight-line sequences

A sequence of instructions to be inserted into a body, together with the stack depth it leaves and
the highest depth on the way.  Both are counted from the depth at its start; what a sequence takes
from below that depth is not counted.
-/

namespace MethodTracing

/-- Instructions with the stack depth that they reach. -/
structure Sequence where
  /-- The instructions, the last one first. -/
  reversed : List Instruction
  /-- The depth at the end, above the start. -/
  depth : Nat
  /-- The highest depth after any instruction, above the start. -/
  peak : Nat
  deriving DecidableEq

namespace Sequence

/-- The sequence without instructions. -/
def empty : Sequence := ⟨[], 0, 0⟩

/-- The instructions in order. -/
def instructions (sequence : Sequence) : List Instruction :=
  sequence.reversed.reverse

/-- The number of instructions. -/
def length (sequence : Sequence) : Nat :=
  sequence.reversed.length

/-- Append an instruction. -/
def emit (sequence : Sequence) (instruction : Instruction) : Sequence :=
  let effect := instruction.effect
  let depth := sequence.depth - effect.pops + effect.pushes
  ⟨instruction :: sequence.reversed, depth, max sequence.peak depth⟩

/-- Append instructions one after another to the empty sequence. -/
def ofList (instructions : List Instruction) : Sequence :=
  instructions.foldl emit empty

@[simp]
theorem instructions_emit (sequence : Sequence) (instruction : Instruction) :
    (sequence.emit instruction).instructions = sequence.instructions ++ [instruction] := by
  simp [emit, instructions]

theorem instructions_foldl_emit (sequence : Sequence) (instructions : List Instruction) :
    (instructions.foldl emit sequence).instructions = sequence.instructions ++ instructions := by
  induction instructions generalizing sequence with
  | nil => simp
  | cons instruction rest ih => simp [ih]

@[simp]
theorem instructions_ofList (instructions : List Instruction) :
    (ofList instructions).instructions = instructions := by
  simp [ofList, instructions_foldl_emit, show empty.instructions = [] from rfl]

end Sequence
end MethodTracing
