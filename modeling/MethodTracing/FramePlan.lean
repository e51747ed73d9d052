import MethodTracing.Text.Numeral
import MethodTracing.Trace.Template

/-!
# Frame plans

The frame of a method once tracing is woven into it: two fresh locals for the start and end times,
taken past the locals that the method declares, and room on the operand stack for the injected
sequences.
-/

namespace MethodTracing

/-- Local slots taken by one time. -/
def timestampSlots : Nat := 2

/-- Why a frame cannot be planned. -/
inductive FrameError
  /-- The locals of the times would pass the ceiling. -/
  | localsExhausted (maxLocals : Nat)
  /-- The operand stack would pass the ceiling. -/
  | stackExhausted (maxStack extra : Nat)
  deriving DecidableEq

/-- The wording of each cause. -/
def FrameError.message : FrameError → String
  | .localsExhausted maxLocals =>
      "max_locals " ++ Text.decimal maxLocals ++ " leaves no room for timestamp slots"
  | .stackExhausted maxStack extra =>
      "max_stack " ++ Text.decimal maxStack ++ " leaves no room for " ++ Text.decimal extra ++
        " injected stack slots"

/-- Fresh locals and raised limits for one method. -/
structure FramePlan where
  /-- First slot of the start time. -/
  startSlot : UInt16
  /-- First slot of the end time. -/
  endSlot : UInt16
  /-- Stack slots added for the injected sequences. -/
  extraDepth : Nat
  /-- The raised number of local slots. -/
  maxLocals : UInt16
  /-- The raised stack limit. -/
  maxStack : UInt16
  deriving DecidableEq

namespace FramePlan

/-- The highest stack depth that an injected sequence reaches. -/
def injectedDepth : Nat :=
  max (Trace.entrySequence "" 0).peak (Trace.exitSequence "" 0 2).peak

/-- Plan a frame from its declared limits.  The locals are checked before the stack. -/
def ofLimits (maxStack maxLocals : UInt16) : Except FrameError FramePlan :=
  let startSlot := maxLocals.toNat
  let endSlot := startSlot + timestampSlots
  if slotCeiling < endSlot + timestampSlots then .error (.localsExhausted maxLocals.toNat)
  else if slotCeiling < maxStack.toNat + injectedDepth then
    .error (.stackExhausted maxStack.toNat injectedDepth)
  else
    .ok
      { startSlot := maxLocals
        endSlot := .ofNat endSlot
        extraDepth := injectedDepth
        maxLocals := .ofNat (endSlot + timestampSlots)
        maxStack := .ofNat (maxStack.toNat + injectedDepth) }

end FramePlan
end MethodTracing
