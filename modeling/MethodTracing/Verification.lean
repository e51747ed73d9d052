import MethodTracing.Flow
import MethodTracing.Instruction.Effect
import MethodTracing.Method

/-!
# Verification

Checks a body against the limits of its frame.  The depth of the operand stack is carried along the
control flow graph: each block is walked once, from the first depth that reaches it, and any later
arrival must bring the same depth.  Blocks wait on a stack, so the last one found is walked next.
-/

namespace MethodTracing

/-- Why a method does not verify. -/
inductive VerifyError
  /-- The body has no control flow graph. -/
  | flow (error : FlowError)
  /-- An instruction takes more off the stack than is there. -/
  | stackUnderflow (index needed depth : Nat)
  /-- An instruction raises the stack above its limit. -/
  | stackOverflow (index depth maxStack : Nat)
  /-- An instruction is reached with two stack depths. -/
  | inconsistentDepth (index first second : Nat)
  /-- An instruction accesses a local past the limit. -/
  | localOutOfRange (index slot maxLocals : Nat)
  /-- The arguments do not fit into the locals. -/
  | parametersExceedLocals (needed maxLocals : Nat)
  /-- Control can run past the last instruction. -/
  | fallsOffEnd
  deriving DecidableEq

/-- The wording of each cause. -/
def VerifyError.message : VerifyError → String
  | .flow error => error.message
  | .stackUnderflow index needed depth =>
      "instruction " ++ Text.decimal index ++ " pops " ++ Text.decimal needed ++
        " slots from a stack of depth " ++ Text.decimal depth
  | .stackOverflow index depth maxStack =>
      "instruction " ++ Text.decimal index ++ " raises stack depth to " ++ Text.decimal depth ++
        ", above max_stack " ++ Text.decimal maxStack
  | .inconsistentDepth index first second =>
      "instruction " ++ Text.decimal index ++ " reached with stack depths " ++
        Text.decimal first ++ " and " ++ Text.decimal second
  | .localOutOfRange index slot maxLocals =>
      "instruction " ++ Text.decimal index ++ " accesses local slot " ++ Text.decimal slot ++
        ", max_locals is " ++ Text.decimal maxLocals
  | .parametersExceedLocals needed maxLocals =>
      "parameters need " ++ Text.decimal needed ++ " local slots, max_locals is " ++
        Text.decimal maxLocals
  | .fallsOffEnd => "control falls off the end of the method body"

/-- What a verified body uses of its frame. -/
structure FrameUsage where
  /-- The highest stack depth on any path. -/
  maxDepth : Nat
  /-- One past the highest local slot used. -/
  localsUsed : Nat
  /-- The number of reachable instructions. -/
  reachable : Nat
  deriving DecidableEq

/-- Record an instruction that leaves the stack at `depth` and uses locals below `locals`. -/
def FrameUsage.record (usage : FrameUsage) (depth locals : Nat) : FrameUsage :=
  ⟨max usage.maxDepth depth, max usage.localsUsed locals, usage.reachable + 1⟩

/-- The limits of a frame. -/
structure FrameLimits where
  /-- The most slots the operand stack may take. -/
  maxStack : Nat
  /-- The number of local slots. -/
  maxLocals : Nat
  deriving DecidableEq

/-- The limits that a method declares. -/
def Method.limits (method : Method) : FrameLimits :=
  ⟨method.maxStack.toNat, method.maxLocals.toNat⟩

namespace Verification

/-- Pass one instruction with the stack at `depth`; the answer is the depth after it. -/
def pass (limits : FrameLimits) (index depth : Nat) (usage : FrameUsage)
    (instruction : Instruction) : Except VerifyError (Nat × FrameUsage) :=
  let effect := instruction.effect
  let after := depth - effect.pops + effect.pushes
  if depth < effect.pops then .error (.stackUnderflow index effect.pops depth)
  else if limits.maxStack < after then .error (.stackOverflow index after limits.maxStack)
  else
    match instruction.access? with
    | none => .ok (after, usage.record after 0)
    | some access =>
        if limits.maxLocals < access.stop then
          .error (.localOutOfRange index access.slot.toNat limits.maxLocals)
        else .ok (after, usage.record after access.stop)

/-- Pass a run of instructions that begins at `index`. -/
def walk (limits : FrameLimits) (index depth : Nat) (usage : FrameUsage) :
    List Instruction → Except VerifyError (Nat × FrameUsage)
  | [] => .ok (depth, usage)
  | instruction :: rest =>
      match pass limits index depth usage instruction with
      | .error error => .error error
      | .ok (after, usage) => walk limits (index + 1) after usage rest

/-- Which blocks were reached, at which depths, and which of them are still to be walked. -/
structure Frontier where
  /-- The depth at the start of each block that was reached. -/
  depths : List (Option Nat)
  /-- Reached blocks that are not walked yet, the next one first. -/
  waiting : List Nat

namespace Frontier

/-- Before anything is walked, the first of `count` blocks is reached at depth zero. -/
def initial : Nat → Frontier
  | 0 => ⟨[], []⟩
  | count + 1 => ⟨some 0 :: List.replicate count none, [0]⟩

/-- Blocks that are still to be walked, now or once they are reached. -/
def work (frontier : Frontier) : Nat :=
  frontier.depths.countP Option.isNone + frontier.waiting.length

/-- Arrive at a block with the stack at `depth`. -/
def arrive (blocks : List Block) (depth : Nat) (frontier : Frontier) (id : Nat) :
    Except VerifyError Frontier :=
  match frontier.depths[id]? with
  | some none => .ok ⟨frontier.depths.set id (some depth), id :: frontier.waiting⟩
  | some (some first) =>
      if first = depth then .ok frontier
      else .error (.inconsistentDepth ((blocks[id]?.map Block.start).getD 0) first depth)
  | none => .ok frontier

/-- Arrive at blocks one after another. -/
def arriveAll (blocks : List Block) (depth : Nat) (frontier : Frontier) :
    List Nat → Except VerifyError Frontier
  | [] => .ok frontier
  | id :: rest =>
      match arrive blocks depth frontier id with
      | .error error => .error error
      | .ok frontier => arriveAll blocks depth frontier rest

theorem work_of_arrive {blocks : List Block} {depth : Nat} {before after : Frontier} {id : Nat}
    (arrived : arrive blocks depth before id = .ok after) : after.work = before.work := by
  unfold arrive at arrived
  split at arrived
  · rename_i unseen
    injection arrived with after_eq
    subst after_eq
    obtain ⟨in_range, unseen⟩ := List.getElem?_eq_some_iff.mp unseen
    have counted : 0 < before.depths.countP Option.isNone :=
      List.countP_pos_iff.mpr ⟨before.depths[id], List.getElem_mem in_range, by simp [unseen]⟩
    simp only [work, List.countP_set in_range, unseen, List.length_cons]
    simp only [Option.isNone_none, Option.isNone_some, if_true, Bool.false_eq_true, if_false]
    omega
  · split at arrived
    · injection arrived with after_eq
      rw [after_eq]
    · simp at arrived
  · injection arrived with after_eq
    rw [after_eq]

theorem work_of_arriveAll {blocks : List Block} {depth : Nat} {before after : Frontier}
    {ids : List Nat} (arrived : arriveAll blocks depth before ids = .ok after) :
    after.work = before.work := by
  induction ids generalizing before with
  | nil =>
      injection arrived with after_eq
      rw [after_eq]
  | cons id rest ih =>
      simp only [arriveAll] at arrived
      split at arrived
      · simp at arrived
      · rename_i between first_arrived
        rw [ih arrived, work_of_arrive first_arrived]

end Frontier

/-- Walk all blocks that wait, and those reached on the way. -/
def explore (limits : FrameLimits) (graph : FlowGraph) (frontier : Frontier) (usage : FrameUsage) :
    Except VerifyError FrameUsage :=
  match _waiting_eq : frontier.waiting with
  | [] => .ok usage
  | id :: rest =>
      match graph.blocks[id]? with
      | none => explore limits graph ⟨frontier.depths, rest⟩ usage
      | some block =>
          let depth := (frontier.depths[id]?.join).getD 0
          match walk limits block.start depth usage (graph.blockCode block) with
          | .error error => .error error
          | .ok (after, usage) =>
              match arrived : Frontier.arriveAll graph.blocks after ⟨frontier.depths, rest⟩
                  block.successors with
              | .error error => .error error
              | .ok next =>
                  have := Frontier.work_of_arriveAll arrived
                  explore limits graph next usage
  termination_by frontier.work
  decreasing_by
    all_goals simp_all [Frontier.work]

end Verification

/-- Verify a method against the limits it declares. -/
def Method.verify (method : Method) : Except VerifyError FrameUsage :=
  let limits := method.limits
  let arguments := method.declaration.argumentSlots
  if limits.maxLocals < arguments then .error (.parametersExceedLocals arguments limits.maxLocals)
  else
    match FlowGraph.build method.instructions with
    | .error error => .error (.flow error)
    | .ok graph =>
        if graph.fallsOffEnd then .error .fallsOffEnd
        else
          Verification.explore limits graph (.initial graph.blocks.length) ⟨0, arguments, 0⟩

end MethodTracing
