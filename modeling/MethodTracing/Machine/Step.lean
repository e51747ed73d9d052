import MethodTracing.Machine.Frame
import MethodTracing.Machine.World
import MethodTracing.Method
import MethodTracing.Trace.Template

/-!
# Single instructions

What one instruction does to the frame of its activation and to the world.  Changes to the world
last even if the instruction fails afterwards.
-/

namespace MethodTracing

/-- Whether an instruction calls the member that prints lines. -/
def Instruction.isPrintln : Instruction → Bool
  | .invoke .virtual method => method.owner = Trace.printStreamClass ∧ method.name = "println"
  | _ => false

/-- Whether an instruction reads the clock. -/
def Instruction.readsClock : Instruction → Bool
  | .invoke .direct method =>
      method.owner = Trace.systemClass ∧ method.name = "currentTimeMillis"
  | _ => false

namespace Machine

/-- Why an instruction ends the whole call. -/
inductive Trap
  /-- It fails. -/
  | fault (fault : Fault)
  /-- The console cannot be written. -/
  | output (reason : String)
  deriving DecidableEq

/-- Where control goes after an instruction. -/
inductive Transfer
  /-- To the next instruction. -/
  | next (frame : Frame)
  /-- To a label. -/
  | jump (frame : Frame) (target : Label)
  /-- To another method. -/
  | call (frame : Frame) (callee : Method) (arguments : List Value)
  /-- Back to the caller. -/
  | leave (value : Option Value)

/-- The value of an operation on two `int` operands; it wraps around. -/
def intResult (left right : Int32) : ArithmeticOp → Int32
  | .add => left + right
  | .sub => left - right
  | .mul => left * right

/-- The value of an operation on two `long` operands; it wraps around. -/
def longResult (left right : Int64) : ArithmeticOp → Int64
  | .add => left + right
  | .sub => left - right
  | .mul => left * right

/-- The fault of a call that the machine does not support. -/
def unsupported (method : MethodRef) : Fault :=
  .unsupportedMember method.text

/-- Go on to the next instruction, unless the frame could not be changed. -/
def proceed : Except Fault Frame → Except Trap Transfer
  | .ok frame => .ok (.next frame)
  | .error fault => .error (.fault fault)

/-- Jump if the test of an operand holds. -/
def branch (target : Label) : Except Fault (Bool × Frame) → Except Trap Transfer
  | .ok (true, frame) => .ok (.jump frame target)
  | .ok (false, frame) => .ok (.next frame)
  | .error fault => .error (.fault fault)

/-- Call a method of a built-in class on a receiver. -/
def callOn (world : World) (receiver : ObjectId) (arguments : List Value) (method : MethodRef) :
    World × Except Trap (Option Value) :=
  if method.owner = Trace.printStreamClass ∧ method.name = "println" then
    if world.object? receiver ≠ some .console then
      (world, .error (.fault (.typeMismatch "PrintStream receiver")))
    else
      match arguments with
      | _ :: _ :: _ => (world, .error (.fault (unsupported method)))
      | arguments =>
          match (arguments.head?.map world.render).getD (.ok "") with
          | .error fault => (world, .error (.fault fault))
          | .ok line =>
              match world.sink.refusal? (.line line) with
              | some reason => (world.ask (.line line), .error (.output reason))
              | none => (world.print line, .ok none)
  else if method.owner = Trace.stringBuilderClass ∧ method.name = "append" then
    match arguments with
    | [argument] =>
        match world.render argument with
        | .error fault => (world, .error (.fault fault))
        | .ok more =>
            if world.isBuilder receiver then
              (world.extend receiver more, .ok (some (.reference receiver)))
            else (world, .error (.fault (.typeMismatch "StringBuilder receiver")))
    | _ => (world, .error (.fault (unsupported method)))
  else if method.owner = Trace.stringBuilderClass ∧ method.name = "toString" then
    match world.object? receiver with
    | some (.builder content) =>
        let (world, object) := world.allocate (.text content)
        (world, .ok (some (.reference object)))
    | _ => (world, .error (.fault (.typeMismatch "StringBuilder receiver")))
  else (world, .error (.fault (unsupported method)))

/-- Push the value of a call if it has one, and go on. -/
def pushResult (frame : Frame) : Option Value → Except Trap Transfer
  | none => .ok (.next frame)
  | some value => proceed (frame.push value)

/-- Carry out a call whose arguments are popped already. -/
def invoke (file : ClassFile) (world : World) (frame : Frame) (arguments : List Value)
    (method : MethodRef) : CallKind → World × Except Trap Transfer
  | .special =>
      match frame.popReference with
      | .error fault => (world, .error (.fault fault))
      | .ok (_, frame) =>
          if method.name = "<init>" ∧ arguments = [] then (world, .ok (.next frame))
          else (world, .error (.fault (unsupported method)))
  | .virtual =>
      match frame.popReference with
      | .error fault => (world, .error (.fault fault))
      | .ok (receiver, frame) =>
          match callOn world receiver arguments method with
          | (world, .error trap) => (world, .error trap)
          | (world, .ok value) => (world, pushResult frame value)
  | .direct =>
      if method.owner = Trace.systemClass ∧ method.name = "currentTimeMillis" then
        let (world, now) := world.readClock
        (world, pushResult frame (some (.long now)))
      else if method.owner = file.name then
        match file.callee? method with
        | some callee => (world, .ok (.call frame callee arguments))
        | none => (world, .error (.fault (unsupported method)))
      else (world, .error (.fault (unsupported method)))

/-- Carry out one instruction. -/
def perform (file : ClassFile) (world : World) (frame : Frame) :
    Instruction → World × Except Trap Transfer
  | .label _ | .nop => (world, .ok (.next frame))
  | .iconst value => (world, proceed (frame.push (.int value)))
  | .lconst value => (world, proceed (frame.push (.long value)))
  | .ldc content =>
      let (world, object) := world.constant content
      (world, proceed (frame.push (.reference object)))
  | .load kind slot =>
      (world, proceed do
        let value ← frame.load slot.toNat kind
        frame.push value)
  | .store kind slot =>
      (world, proceed do
        let (value, frame) ← frame.popKind kind
        frame.store slot.toNat value)
  | .iinc slot delta =>
      (world, proceed do
        match ← frame.load slot.toNat .int with
        | .int value => frame.store slot.toNat (.int (value + delta.toInt32))
        | _ => .error (.typeMismatch "int local"))
  | .intArithmetic op =>
      (world, proceed do
        let (right, frame) ← frame.popInt
        let (left, frame) ← frame.popInt
        frame.push (.int (intResult left right op)))
  | .longArithmetic op =>
      (world, proceed do
        let (right, frame) ← frame.popLong
        let (left, frame) ← frame.popLong
        frame.push (.long (longResult left right op)))
  | .dup =>
      (world, proceed do
        let (value, frame) ← frame.popNarrow
        let frame ← frame.push value
        frame.push value)
  | .pop => (world, proceed (frame.popNarrow.map Prod.snd))
  | .pop2 =>
      (world, proceed do
        let (value, rest) ← frame.pop
        if value.width = 2 then return rest
        let (_, rest) ← rest.popNarrow
        return rest)
  | .swap =>
      (world, proceed do
        let (upper, frame) ← frame.popNarrow
        let (lower, frame) ← frame.popNarrow
        let frame ← frame.push upper
        frame.push lower)
  | .branchZero condition target =>
      (world, branch target do
        let (value, frame) ← frame.popInt
        return (condition.holds value 0, frame))
  | .branchCompare condition target =>
      (world, branch target do
        let (right, frame) ← frame.popInt
        let (left, frame) ← frame.popInt
        return (condition.holds left right, frame))
  | .goto target => (world, .ok (.jump frame target))
  | .getStatic field =>
      if field.owner = Trace.systemClass ∧ field.name = "out" then
        let (world, object) := world.theConsole
        (world, proceed (frame.push (.reference object)))
      else (world, .error (.fault (.unsupportedMember (field.owner ++ "." ++ field.name))))
  | .new className =>
      let (world, object) :=
        world.allocate
          (if className = Trace.stringBuilderClass then .builder "" else .plain className)
      (world, proceed (frame.push (.reference object)))
  | .invoke call method =>
      match frame.popArguments method.type.parameters with
      | .error fault => (world, .error (.fault fault))
      | .ok (arguments, frame) => invoke file world frame arguments method call
  | .ret none => (world, .ok (.leave none))
  | .ret (some kind) =>
      match frame.popKind kind with
      | .error fault => (world, .error (.fault fault))
      | .ok (value, _) => (world, .ok (.leave (some value)))
  | .athrow =>
      match frame.popReference with
      | .error fault => (world, .error (.fault fault))
      | .ok _ => (world, .error (.fault .thrown))

end Machine
end MethodTracing
