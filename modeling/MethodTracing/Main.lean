import MethodTracing.CommandLine.Parser
import MethodTracing.CommandLine.Session
import Std.Time.DateTime.Timestamp

/-!
# The program

Carries out the command line over the files, the console and the clock of the system.  A call is
attended to, so that it shows its progress.
-/

namespace MethodTracing
namespace CommandLine

/-- Why the system could not read or write a file. -/
def systemCause : IO.Error → FileError
  | .noFileOrDirectory .. => .notFound
  | .inappropriateType _ 20 _ => .notADirectory
  | .inappropriateType _ 21 _ => .isADirectory
  | .invalidArgument _ 36 _ => .nameTooLong
  | cause => .other (toString cause)

/-- The text of a file of the system. -/
def readFile (path : String) : IO (Except FileError String) := do
  match ← (IO.FS.readBinFile path).toBaseIO with
  | .error cause => return .error (systemCause cause)
  | .ok bytes =>
      match String.fromUTF8? bytes with
      | some text => return .ok text
      | none => return .error .notText

/-- The named files as they are now; writing to any path is taken to succeed. -/
def readFiles (paths : List String) : IO Files := do
  let texts ← paths.mapM fun path => return (path, ← readFile path)
  return ⟨fun path => (texts.lookup path).getD (.error .notFound), fun _ => none⟩

/-- Write files, and answer the first that could not be written. -/
def writeFiles : List (String × String) → IO (Option FileError)
  | [] => return none
  | (path, text) :: rest => do
      match ← (IO.FS.writeFile path text).toBaseIO with
      | .error cause => return some (systemCause cause)
      | .ok () => writeFiles rest

/-- The milliseconds by which the clock of the system is ahead of the time since the start. -/
def clockOffset : IO Int := do
  let time ← Std.Time.Timestamp.now
  return time.toMillisecondsSinceUnixEpoch.val - (← IO.monoMsNow)

/-- Serve a request of a call, and answer why that failed if it did. -/
def serve (request : Machine.Request) : IO (Option String) := do
  let served :=
    match request with
    | .line text => IO.println text
    | .flush => do (← IO.getStdout).flush
  match ← served.toBaseIO with
  | .ok () => return none
  | .error cause => return some (toString cause)

/-- Attend to a call to its end.  Its times are those since the start, so that none of them is
earlier than another one before it. -/
def attendTo (offset : Int) :
    Machine.Attended → IO (Machine.World × Except Machine.CallError (Option Machine.Value))
  | .ended world outcome => return (world, outcome)
  | .reads resume => do attendTo offset (resume (.ofInt (offset + (← IO.monoMsNow))))
  | .asks request resume => do attendTo offset (resume (← serve request))

/-- Make the call a command asks for.  Its lines are printed by then. -/
def call (task : Task) : IO Transcript := do
  let (world, outcome) ← attendTo (← clockOffset) task.attend
  return finish task world outcome

/-- Carry out a command up to what is left to be told. -/
def execute (command : Command) : IO Transcript := do
  let files ← readFiles command.reads
  match begin files command with
  | .call task => call task
  | .done transcript =>
      match ← writeFiles transcript.written with
      | none => return transcript
      | some cause =>
          match begin { files with writeError? := fun _ => some cause } command with
          | .done transcript => return transcript
          | .call task => call task

/-- Tell the outcome of a command. -/
def tell (debug : Bool) (transcript : Transcript) : IO Unit := do
  if debug then
    for notice in transcript.notices do
      IO.eprintln notice.line
  IO.print transcript.output
  for remark in transcript.remarks do
    IO.eprintln remark
  IO.eprint transcript.failureText

end CommandLine
end MethodTracing

/-- Carry out the command line. -/
def main (words : List String) : IO UInt32 := do
  match MethodTracing.CommandLine.parse words with
  | .error cause =>
      if cause.isWish then IO.println cause.message else IO.eprintln cause.message
      return .ofNat cause.exitCode
  | .ok invocation =>
      let transcript ← MethodTracing.CommandLine.execute invocation.command
      MethodTracing.CommandLine.tell invocation.debug transcript
      return .ofNat transcript.exitCode
