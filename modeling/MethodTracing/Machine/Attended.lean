import MethodTracing.Machine.Run

/-!
# Attended runs

A run needs two things of the world outside: a clock that it reads, and a sink that it asks to take
lines and to hand them over.  An attended run stops where it needs one of them and goes on with what
it is told, so that a call can be made while time passes and lines are read.
-/

namespace MethodTracing
namespace Machine

/-- What lies outside a run, and the lines that got there. -/
structure Outside where
  /-- The clock. -/
  clock : Clock
  /-- Where printed lines go. -/
  sink : Sink
  /-- Lines printed so far. -/
  printed : Array String

namespace Outside

/-- Show a time. -/
def tick (outside : Outside) : Outside :=
  { outside with clock := outside.clock.tick }

/-- Serve a request: a line that is not refused is printed. -/
def serve (outside : Outside) (request : Request) : Outside where
  clock := outside.clock
  sink := outside.sink.after request
  printed :=
    match request, outside.sink.refusal? request with
    | .line text, none => outside.printed.push text
    | _, _ => outside.printed

/-- Outside, it is always the same time, and every request is refused or none. -/
def still (time : Int64) (refusal : Option String) : Outside :=
  ⟨⟨fun _ => time, 0⟩, ⟨fun _ _ => refusal, []⟩, #[]⟩

end Outside

/-- A world with another outside. -/
def World.facing (world : World) (outside : Outside) : World :=
  { world with clock := outside.clock, sink := outside.sink, printed := outside.printed }

/-- A run between two instructions, with another outside. -/
def State.facing (state : State) (outside : Outside) : State :=
  { state with world := state.world.facing outside }

/-- What a run needs of the world outside. -/
inductive Errand
  /-- The time. -/
  | time
  /-- An answer of the sink. -/
  | request (request : Request)

/-- What the next instruction needs.  It is tried out where everything is granted, and what it has
asked for is read off. -/
def State.errand? (setup : Setup) (state : State) : Option Errand :=
  if state.current.instruction?.any fun instruction =>
      instruction.isPrintln || instruction.readsClock then
    let tried := (step setup (state.facing (.still 0 none))).world
    match tried.sink.asked with
    | request :: _ => some (.request request)
    | [] => if tried.clock.taken = 0 then none else some .time
  else none

/-- A run that is attended to. -/
inductive Attended
  /-- It has ended. -/
  | ended (world : World) (outcome : Except CallError (Option Value))
  /-- It reads the clock. -/
  | reads (resume : Int64 → Attended)
  /-- It asks the sink, and wants to know why that fails if it does. -/
  | asks (request : Request) (resume : Option String → Attended)

/-- The end of a call: the lines are handed over, and failing to do so overrides the outcome. -/
def Attended.close (world : World) (outcome : Except CallError (Option Value)) : Attended :=
  .asks .flush fun refusal =>
    .ended (world.facing (.still 0 none))
      (match refusal with
        | some reason => .error (.output reason)
        | none => outcome)

/-- Run to the end of a call, executing at most `fuel` instructions, and stop for every errand. -/
def attend (setup : Setup) : Nat → Progress → Attended
  | _, .ended world outcome => .close world outcome
  | 0, .running state => .close state.world (.error (exhausted state))
  | fuel + 1, .running state =>
      match state.errand? setup with
      | none => attend setup fuel (step setup state)
      | some .time =>
          .reads fun time => attend setup fuel (step setup (state.facing (.still time none)))
      | some (.request request) =>
          .asks request fun refusal =>
            attend setup fuel (step setup (state.facing (.still 0 refusal)))

/-- Call the first method of a name, and stop for every errand. -/
def Session.attend (session : Session) (name : String) (arguments : List Value) : Attended :=
  match session.begin name arguments with
  | none => .ended (session.world.facing (.still 0 none)) (.error (.unknownMethod name))
  | some progress => Machine.attend session.setup session.fuel progress

end Machine
end MethodTracing
