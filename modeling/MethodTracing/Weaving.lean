import MethodTracing.Flow
import MethodTracing.FramePlan
import MethodTracing.Selection

/-!
# Weaving

Inserts the entry sequence before the first instruction of a body, so that it runs once per call
even when the body loops back to its start, and a copy of the exit sequence before every return.
Exceptional exits stay as they are.

An attempt that fails may have changed the method already: the entry sequence goes in before the
control flow is examined.
-/

namespace MethodTracing

/-- Why a method cannot be woven. -/
inductive WeaveError
  /-- The frame of the named method cannot be planned. -/
  | frame (method : String) (cause : FrameError)
  /-- The body of the named method has no control flow graph. -/
  | flow (method : String) (cause : FlowError)
  deriving DecidableEq

/-- The wording of the inner cause. -/
def WeaveError.causeMessage : WeaveError → String
  | .frame _ cause => cause.message
  | .flow _ cause => cause.message

/-- The wording of each cause. -/
def WeaveError.message : WeaveError → String
  | .frame method cause => "cannot plan frame of " ++ method ++ ": " ++ cause.message
  | .flow method cause => "malformed control flow in " ++ method ++ ": " ++ cause.message

/-- What weaving did to a method. -/
structure Weave where
  /-- The frame plan that was followed. -/
  plan : FramePlan
  /-- The number of exit sequences inserted. -/
  exitSites : Nat
  deriving DecidableEq

/-- A method after an attempt at it, and the outcome of the attempt. -/
structure Attempt (α : Type) where
  /-- The method as the attempt leaves it. -/
  method : Method
  /-- What the attempt achieved, or why it failed. -/
  outcome : Except WeaveError α

namespace Weaving

/-- Insert a sequence before the instructions at ascending indices, in a part that begins at
`index`. -/
def insertAt (sequence : List Instruction) (sites : List Nat) (index : Nat) :
    List Instruction → List Instruction
  | [] => []
  | instruction :: rest =>
      match sites with
      | [] => instruction :: insertAt sequence [] (index + 1) rest
      | site :: later =>
          if site = index then
            sequence ++ instruction :: insertAt sequence later (index + 1) rest
          else instruction :: insertAt sequence (site :: later) (index + 1) rest

end Weaving

namespace Method

/-- The frame plan of a method. -/
def framePlan (method : Method) : Except WeaveError FramePlan :=
  (FramePlan.ofLimits method.maxStack method.maxLocals).mapError
    (.frame method.declaration.qualifiedName)

/-- Insert the entry sequence before the body. -/
def weaveEntry (startSlot : UInt16) (method : Method) : Method :=
  { method with
    instructions :=
      (Trace.entrySequence method.declaration.name startSlot).instructions ++ method.instructions }

/-- Insert an exit sequence before every return; the answer is their number. -/
def weaveExits (startSlot endSlot : UInt16) (method : Method) : Attempt Nat :=
  match FlowGraph.build method.instructions with
  | .error cause => ⟨method, .error (.flow method.declaration.qualifiedName cause)⟩
  | .ok graph =>
      let exit := (Trace.exitSequence method.declaration.name startSlot endSlot).instructions
      let sites := graph.exitSites
      ⟨{ method with instructions := Weaving.insertAt exit sites 0 method.instructions },
        .ok sites.length⟩

/-- Plan the frame of a method, weave its body, and raise its limits. -/
def instrument (method : Method) : Attempt Weave :=
  match method.framePlan with
  | .error cause => ⟨method, .error cause⟩
  | .ok plan =>
      match (method.weaveEntry plan.startSlot).weaveExits plan.startSlot plan.endSlot with
      | ⟨after, .error cause⟩ => ⟨after, .error cause⟩
      | ⟨after, .ok exitSites⟩ =>
          ⟨{ after with maxStack := plan.maxStack, maxLocals := plan.maxLocals },
            .ok ⟨plan, exitSites⟩⟩

/-- Mark a method as woven. -/
def tagTraced (method : Method) : Method :=
  { method with declaration := method.declaration.tagTraced }

/-- Weave and mark a method if the settings select it; the outcome of any other is `none`. -/
def weave (settings : Settings) (method : Method) : Attempt (Option Weave) :=
  if settings.selects method.declaration then
    match method.instrument with
    | ⟨after, .error cause⟩ => ⟨after, .error cause⟩
    | ⟨after, .ok weave⟩ => ⟨after.tagTraced, .ok (some weave)⟩
  else ⟨method, .ok none⟩

end Method
end MethodTracing
