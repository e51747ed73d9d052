import MethodTracing.Machine.Body
import MethodTracing.Machine.Step

/-!
# Running methods

A run is a sequence of single steps.  Its state is the world, the activation that executes, and the
activations that wait for it to return.  A budget bounds the number of instructions of a call.
-/

namespace MethodTracing
namespace Machine

/-- Instructions that a call may execute unless told otherwise. -/
def defaultFuel : Nat := 10000000

/-- Activations that may be nested unless told otherwise. -/
def defaultCallDepth : Nat := 256

/-- One execution of a method's body. -/
structure Activation where
  /-- The body. -/
  body : Body
  /-- Its operands and locals. -/
  frame : Frame
  /-- Index of the instruction to execute. -/
  index : Nat

namespace Activation

/-- The instruction to execute. -/
def instruction? (activation : Activation) : Option Instruction :=
  activation.body.instruction? activation.index

/-- Go on to the next instruction. -/
def advance (activation : Activation) (frame : Frame) : Activation :=
  { activation with frame, index := activation.index + 1 }

end Activation

/-- The failure of an instruction of a method. -/
def failureAt (method : Method) (index : Nat) (fault : Fault) : CallError :=
  .fault method.declaration.qualifiedName index fault

/-- What stays fixed during a run. -/
structure Setup where
  /-- The class whose methods are executed. -/
  file : ClassFile
  /-- Activations that may be nested. -/
  callDepth : Nat

/-- A run between two instructions. -/
structure State where
  /-- The world. -/
  world : World
  /-- The activation that executes. -/
  current : Activation
  /-- Activations that wait, the innermost first. -/
  callers : List Activation

/-- A run that goes on, or has ended with a value, no value, or a failure. -/
inductive Progress
  | running (state : State)
  | ended (world : World) (outcome : Except CallError (Option Value))

/-- The world that a run has come to. -/
def Progress.world : Progress → World
  | .running state => state.world
  | .ended world _ => world

/-- The number of arguments of a method, the receiver included. -/
def argumentCount (method : Method) : Nat :=
  method.declaration.receiverSlots +
    (method.declaration.type.map fun type => type.parameters.length).getD 0

/-- Begin an activation.  The number of arguments is checked before the nesting. -/
def activate (setup : Setup) (world : World) (callers : List Activation) (method : Method)
    (arguments : List Value) : Progress :=
  if arguments.length ≠ argumentCount method then
    .ended world (.error (.argumentCount method.declaration.qualifiedName (argumentCount method)
      arguments.length))
  else if setup.callDepth ≤ callers.length then
    .ended world (.error (.callDepthExceeded setup.callDepth))
  else
    match (Frame.empty method.maxStack method.maxLocals.toNat).layOut 0 arguments with
    | .error fault => .ended world (.error (failureAt method 0 fault))
    | .ok frame =>
        .running ⟨world, ⟨.ofMethod method, frame, 0⟩, callers⟩

/-- Return a value, if there is one, to the innermost waiting activation. -/
def resume (world : World) (value : Option Value) : List Activation → Progress
  | [] => .ended world (.ok value)
  | caller :: callers =>
      match value with
      | none => .running ⟨world, caller.advance caller.frame, callers⟩
      | some value =>
          match caller.frame.push value with
          | .error fault => .ended world (.error (failureAt caller.body.method caller.index fault))
          | .ok frame => .running ⟨world, caller.advance frame, callers⟩

/-- Execute one instruction. -/
def step (setup : Setup) : State → Progress
  | ⟨world, ⟨body, frame, index⟩, callers⟩ =>
      match body.instruction? index with
      | none => .ended world (.error (failureAt body.method index .fellOffEnd))
      | some instruction =>
          match perform setup.file world frame instruction with
          | (world, .error (.fault fault)) =>
              .ended world (.error (failureAt body.method index fault))
          | (world, .error (.output reason)) => .ended world (.error (.output reason))
          | (world, .ok (.next frame)) => .running ⟨world, ⟨body, frame, index + 1⟩, callers⟩
          | (world, .ok (.jump frame target)) =>
              match body.place? target with
              | none => .ended world (.error (failureAt body.method index (.undefinedLabel target)))
              | some index => .running ⟨world, ⟨body, frame, index⟩, callers⟩
          | (world, .ok (.call frame callee arguments)) =>
              activate setup world (⟨body, frame, index⟩ :: callers) callee arguments
          | (world, .ok (.leave value)) => resume world value callers

/-- What a run comes to when the budget is used up: a body that has no further instruction fails
for that reason. -/
def exhausted (state : State) : CallError :=
  if state.current.instruction?.isNone then
    failureAt state.current.body.method state.current.index .fellOffEnd
  else .outOfFuel

/-- Run to the end, executing at most `fuel` instructions. -/
def run (setup : Setup) : Nat → Progress → World × Except CallError (Option Value)
  | _, .ended world outcome => (world, outcome)
  | 0, .running state => (state.world, .error (exhausted state))
  | fuel + 1, .running state => run setup fuel (step setup state)

/-- A class ready to be called, with the world that its calls share. -/
structure Session where
  /-- The class and the nesting limit. -/
  setup : Setup
  /-- Instructions that each call may execute. -/
  fuel : Nat
  /-- The world between two calls. -/
  world : World

namespace Session

/-- A session over a class with the default limits. -/
def start (file : ClassFile) (clock : Clock) (sink : Sink) : Session :=
  ⟨⟨file, defaultCallDepth⟩, defaultFuel, .initial clock sink⟩

/-- Begin a call of the first method of a name; a method with a receiver gets a fresh object. -/
def begin (session : Session) (name : String) (arguments : List Value) : Option Progress :=
  match session.setup.file.method? name with
  | none => none
  | some method =>
      if method.declaration.access.isStatic then
        some (activate session.setup session.world [] method arguments)
      else
        let (world, receiver) := session.world.allocate (.plain session.setup.file.name)
        some (activate session.setup world [] method (.reference receiver :: arguments))

/-- The outcome of a call whose lines are all handed over; failing to do so overrides it. -/
def settle (world : World) (outcome : Except CallError (Option Value)) :
    Except CallError (Option Value) :=
  match world.sink.refusal? .flush with
  | some reason => .error (.output reason)
  | none => outcome

/-- Call the first method of a name. -/
def invoke (session : Session) (name : String) (arguments : List Value) :
    Session × Except CallError (Option Value) :=
  match session.begin name arguments with
  | none => (session, .error (.unknownMethod name))
  | some progress =>
      match run session.setup session.fuel progress with
      | (world, outcome) => ({ session with world := world.ask .flush }, settle world outcome)

end Session
end Machine
end MethodTracing
