import MethodTracing.Machine.Value

/-!
# Frames

The operand stack and the locals of one activation.  Both limits are enforced: a push past the
stack limit and an access past the locals fail.  The slots of the operands are counted in sixteen
bits, so that a push past 65535 slots wraps around to a count within the limit.
-/

namespace MethodTracing
namespace Machine

/-- The operand stack and the locals of one activation. -/
structure Frame where
  /-- Operands, the top one first. -/
  stack : List Value
  /-- Slots taken by the operands, as they are counted. -/
  depth : UInt16
  /-- The most slots the operands may take. -/
  maxStack : UInt16
  /-- The locals. -/
  locals : Array Value

namespace Frame

/-- A frame without operands whose locals are not set. -/
def empty (maxStack : UInt16) (maxLocals : Nat) : Frame :=
  ⟨[], 0, maxStack, Array.replicate maxLocals .top⟩

/-- Push a value. -/
def push (frame : Frame) (value : Value) : Except Fault Frame :=
  if frame.maxStack < frame.depth + .ofNat value.width then
    .error (.stackOverflow frame.maxStack.toNat)
  else
    .ok { frame with stack := value :: frame.stack, depth := frame.depth + .ofNat value.width }

/-- Pop a value. -/
def pop (frame : Frame) : Except Fault (Value × Frame) :=
  match frame.stack with
  | [] => .error .stackUnderflow
  | value :: rest =>
      .ok (value, { frame with stack := rest, depth := frame.depth - .ofNat value.width })

/-- Pop an `int`. -/
def popInt (frame : Frame) : Except Fault (Int32 × Frame) :=
  match frame.pop with
  | .ok (.int value, frame) => .ok (value, frame)
  | .ok _ => .error (.typeMismatch "int")
  | .error fault => .error fault

/-- Pop a `long`. -/
def popLong (frame : Frame) : Except Fault (Int64 × Frame) :=
  match frame.pop with
  | .ok (.long value, frame) => .ok (value, frame)
  | .ok _ => .error (.typeMismatch "long")
  | .error fault => .error fault

/-- Pop a reference. -/
def popReference (frame : Frame) : Except Fault (ObjectId × Frame) :=
  match frame.pop with
  | .ok (.reference object, frame) => .ok (object, frame)
  | .ok _ => .error (.typeMismatch "reference")
  | .error fault => .error fault

/-- Pop a value of one slot. -/
def popNarrow (frame : Frame) : Except Fault (Value × Frame) :=
  match frame.pop with
  | .ok (value, frame) =>
      if value.width = 1 then .ok (value, frame) else .error (.typeMismatch "single-slot value")
  | .error fault => .error fault

/-- Pop a value of the given kind. -/
def popKind (frame : Frame) : ValueKind → Except Fault (Value × Frame)
  | .int => frame.popInt.map fun (value, frame) => (.int value, frame)
  | .long => frame.popLong.map fun (value, frame) => (.long value, frame)
  | .reference => frame.popReference.map fun (object, frame) => (.reference object, frame)

/-- Whether the locals hold a number of slots from a given one on. -/
def holds (frame : Frame) (slot width : Nat) : Bool :=
  slot + width ≤ frame.locals.size

/-- The fault of an access past the locals. -/
def outOfRange (frame : Frame) (slot : Nat) : Fault :=
  .localOutOfRange slot frame.locals.size

/-- Set a local; a `long` unsets the slot after it. -/
def store (frame : Frame) (slot : Nat) (value : Value) : Except Fault Frame :=
  if frame.holds slot value.width then
    let locals := frame.locals.setIfInBounds slot value
    .ok { frame with
      locals := if value.width = 2 then locals.setIfInBounds (slot + 1) .top else locals }
  else .error (frame.outOfRange slot)

/-- The value of a local of the given kind. -/
def load (frame : Frame) (slot : Nat) (kind : ValueKind) : Except Fault Value :=
  if frame.holds slot kind.width then
    match kind, frame.locals.getD slot .top with
    | .int, .int value => .ok (.int value)
    | .long, .long value => .ok (.long value)
    | .reference, .reference object => .ok (.reference object)
    | .int, _ => .error (.typeMismatch "int local")
    | .long, _ => .error (.typeMismatch "long local")
    | .reference, _ => .error (.typeMismatch "reference local")
  else .error (frame.outOfRange slot)

/-- Store arguments into the locals, one after another from a slot on. -/
def layOut (frame : Frame) (slot : Nat) : List Value → Except Fault Frame
  | [] => .ok frame
  | argument :: rest =>
      match frame.store slot argument with
      | .error fault => .error fault
      | .ok frame => frame.layOut (slot + argument.width) rest

/-- Pop a value of a parameter's type. -/
def popArgument (frame : Frame) : FieldType → Except Fault (Value × Frame)
  | .boolean | .byte | .char | .short | .int => frame.popKind .int
  | .long => frame.popKind .long
  | .object _ | .array _ => frame.popKind .reference
  | .float | .double => .error (.typeMismatch "integral or reference argument")

/-- Pop arguments, given the parameters from the last to the first, in front of `arguments`. -/
def popReversed (frame : Frame) (arguments : List Value) :
    List FieldType → Except Fault (List Value × Frame)
  | [] => .ok (arguments, frame)
  | parameter :: rest =>
      match frame.popArgument parameter with
      | .error fault => .error fault
      | .ok (argument, frame) => frame.popReversed (argument :: arguments) rest

/-- Pop the arguments of a call; they are answered in the order of the parameters. -/
def popArguments (frame : Frame) (parameters : List FieldType) :
    Except Fault (List Value × Frame) :=
  frame.popReversed [] parameters.reverse

end Frame
end Machine
end MethodTracing
