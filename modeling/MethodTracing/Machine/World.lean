import MethodTracing.Annotation
import MethodTracing.Machine.Value

/-!
# The world of the machine

What lies outside the frames and outlives a call: the heap, the shared constants, the console, the
clock, and the sink of printed lines.
-/

namespace MethodTracing
namespace Machine

/-- A clock: the times that it shows, one reading after another. -/
structure Clock where
  /-- The time of each reading, in milliseconds. -/
  reading : Nat → Int64
  /-- Readings that were taken. -/
  taken : Nat

namespace Clock

/-- The time of the next reading. -/
def now (clock : Clock) : Int64 :=
  clock.reading clock.taken

/-- A clock after one reading. -/
def tick (clock : Clock) : Clock :=
  { clock with taken := clock.taken + 1 }

/-- A clock that advances by a fixed step whenever it is read. -/
def steady (start step : Int64) : Clock :=
  ⟨fun taken => start + step * .ofNat taken, 0⟩

end Clock

/-- What a sink is asked for. -/
inductive Request
  /-- To take a line. -/
  | line (text : String)
  /-- To hand over the lines that it has taken. -/
  | flush
  deriving DecidableEq

/-- Where printed lines go.  A sink may fill up, be closed or recover: what it does to a request may
depend on all requests before. -/
structure Sink where
  /-- Why a request fails, if it does, after other ones, the latest of them first. -/
  failure? : List Request → Request → Option String
  /-- The requests so far, the latest first. -/
  asked : List Request

namespace Sink

/-- Why the sink does not do what it is asked for next, if it does not. -/
def refusal? (sink : Sink) (request : Request) : Option String :=
  sink.failure? sink.asked request

/-- A sink after one more request. -/
def after (sink : Sink) (request : Request) : Sink :=
  { sink with asked := request :: sink.asked }

/-- A sink that does the same at all times: why it takes no lines, and why it does not hand them
over. -/
def steady (lines flushes : Option String) : Sink where
  failure?
    | _, .line _ => lines
    | _, .flush => flushes
  asked := []

/-- A sink that never fails. -/
def reliable : Sink :=
  steady none none

end Sink

/-- The state that outlives a call. -/
structure World where
  /-- All objects, in the order in which they were made. -/
  heap : Array Object
  /-- The shared objects of constant texts. -/
  constants : List (String × ObjectId)
  /-- The console, once it was asked for. -/
  console : Option ObjectId
  /-- The clock. -/
  clock : Clock
  /-- Where printed lines go. -/
  sink : Sink
  /-- Lines printed so far. -/
  printed : Array String

namespace World

/-- A world without objects. -/
def initial (clock : Clock) (sink : Sink) : World :=
  ⟨#[], [], none, clock, sink, #[]⟩

/-- Make an object. -/
def allocate (world : World) (object : Object) : World × ObjectId :=
  let made := ⟨world.heap.size⟩
  ({ world with heap := world.heap.push object }, made)

/-- The shared object of a constant text, made when first asked for. -/
def constant (world : World) (content : String) : World × ObjectId :=
  match world.constants.lookup content with
  | some object => (world, object)
  | none =>
      let (world, object) := world.allocate (.text content)
      ({ world with constants := (content, object) :: world.constants }, object)

/-- The console, made when first asked for. -/
def theConsole (world : World) : World × ObjectId :=
  match world.console with
  | some object => (world, object)
  | none =>
      let (world, object) := world.allocate .console
      ({ world with console := some object }, object)

/-- Read the clock. -/
def readClock (world : World) : World × Int64 :=
  ({ world with clock := world.clock.tick }, world.clock.now)

/-- A world whose sink was asked for one thing more. -/
def ask (world : World) (request : Request) : World :=
  { world with sink := world.sink.after request }

/-- A world with one more line printed. -/
def print (world : World) (line : String) : World :=
  { world.ask (.line line) with printed := world.printed.push line }

/-- The object of a handle. -/
def object? (world : World) (object : ObjectId) : Option Object :=
  world.heap[object.index]?

/-- Whether a handle leads to a text under construction. -/
def isBuilder (world : World) (object : ObjectId) : Bool :=
  match world.object? object with
  | some (.builder _) => true
  | _ => false

/-- Extend a text under construction. -/
def extend (world : World) (object : ObjectId) (more : String) : World :=
  { world with heap := world.heap.modify object.index (·.extend more) }

/-- The text of a value that is a text or a text under construction. -/
def textOf? (world : World) : Value → Option String
  | .reference object =>
      match world.object? object with
      | some (.text content) | some (.builder content) => some content
      | _ => none
  | _ => none

/-- The printed form of a value. -/
def render (world : World) : Value → Except Fault String
  | .int value => .ok (Text.decimal value.toInt)
  | .long value => .ok (Text.decimal value.toInt)
  | .reference object =>
      match world.object? object with
      | some (.text content) | some (.builder content) => .ok content
      | some (.plain className) =>
          .ok (dotted className ++ "@" ++ Text.hexadecimal object.index)
      | _ => .error (.typeMismatch "printable value")
  | .top => .error (.typeMismatch "initialized value")

/-- Everything printed so far, each line with its end. -/
def output (world : World) : String :=
  world.printed.foldl (fun text line => text ++ line ++ "\n") ""

end World
end Machine
end MethodTracing
