import MethodTracing.CommandLine.Files
import MethodTracing.CommandLine.Inspection
import MethodTracing.CommandLine.Notice
import MethodTracing.Document.Reader
import MethodTracing.Machine.Attended
import MethodTracing.Settings.Document

/-!
# Carrying out commands

What a command prints, writes and answers, given the files it can reach.  A call of a method is
handed out as a task of its own, so that it can be attended to while it runs.
-/

namespace MethodTracing
namespace CommandLine

/-- What the program leaves behind. -/
structure Transcript where
  /-- Text for the standard output. -/
  output : String
  /-- Lines for the standard error. -/
  remarks : List String
  /-- Why the command failed: what was tried, then the causes, the outermost first. -/
  failure : List String
  /-- What is told when diagnostics are shown. -/
  notices : List Notice
  /-- Written files by their paths. -/
  written : List (String × String)

namespace Transcript

/-- A failure. -/
def fail (notices : List Notice) (failure : List String) : Transcript :=
  ⟨"", [], failure, notices, []⟩

/-- The exit code of the program. -/
def exitCode (transcript : Transcript) : Nat :=
  if transcript.failure.isEmpty then 0 else 1

/-- The failure as it is told to the user. -/
def failureText (transcript : Transcript) : String :=
  match transcript.failure with
  | [] => ""
  | [cause] => "Error: " ++ cause ++ "\n"
  | cause :: causes =>
      "Error: " ++ cause ++ "\n\nCaused by:\n" ++
        String.join (causes.map fun cause => "    " ++ cause ++ "\n")

end Transcript

/-- A call to be made before a command is done. -/
structure Task where
  /-- The class. -/
  file : ClassFile
  /-- Name of the method. -/
  method : String
  /-- The arguments. -/
  arguments : List Machine.Value
  /-- What was told before. -/
  notices : List Notice

namespace Task

/-- A fresh session for the call. -/
def session (task : Task) (clock : Machine.Clock) (sink : Machine.Sink) : Machine.Session :=
  .start task.file clock sink

/-- Make the call, and stop for all that it needs of the world outside. -/
def attend (task : Task) : Machine.Attended :=
  (task.session (.steady 0 0) .reliable).attend task.method task.arguments

end Task

/-- A command that is done, or waits for a call. -/
inductive Progress
  | done (transcript : Transcript)
  | call (task : Task)

/-- The causes of a class that could not be woven. -/
def weaveFailure (file : ClassFile) (cause : PipelineError) : List String :=
  ["Failed to weave class " ++ file.name, cause.message,
    match cause with
    | .weave cause => cause.causeMessage
    | .verify _ cause => cause.message]

/-- Read a class. -/
def readClass (files : Files) (path : String) : Except (List String) ClassFile :=
  match files.read path with
  | .error cause => .error ["Failed to read " ++ path, cause.message]
  | .ok text =>
      match ClassFile.parse text with
      | none => .error ["Failed to parse class file " ++ path, "Invalid class JSON"]
      | some file => .ok file

/-- Apply options one after another. -/
def applyOptions (settings : Settings) : List String → Except (List String) Settings
  | [] => .ok settings
  | option :: rest =>
      match settings.applyOptionText option with
      | .error cause => .error ["Invalid plugin option '" ++ option ++ "'", cause.message]
      | .ok settings => applyOptions settings rest

/-- Put settings together: a document first, then the options in order. -/
def loadSettings (files : Files) (source : SettingsSource) : Except (List String) Settings :=
  match source.document with
  | none => applyOptions .initial source.options
  | some path =>
      match files.read path with
      | .error cause => .error ["Failed to read " ++ path, cause.message]
      | .ok text =>
          match Settings.parse text with
          | none => .error ["Failed to parse TOML"]
          | some settings => applyOptions settings source.options

/-- The failure of settings that are not valid. -/
def invalidSettings (cause : SettingsError) : List String :=
  ["Invalid instrumentation configuration", cause.message]

/-- The line that sums up a woven class; it is broken where the name of the class is. -/
def summary (file : ClassFile) (report : Report) : List String :=
  let text :=
    "tejer: " ++ file.name ++ ": " ++ Text.decimal report.inspected ++ " method(s) inspected, " ++
      Text.decimal report.selected ++ " woven, " ++ Text.decimal report.exitSites ++
      " exit site(s)"
  text.splitOn "\n"

/-- Weave a class and write it. -/
def weave (files : Files) (input : String) (output : Option String) (verifies : Bool)
    (source : SettingsSource) : Transcript :=
  match loadSettings files source with
  | .error failure => .fail [] failure
  | .ok settings =>
      let loaded : List Notice := [.settingsLoaded settings]
      match Pipeline.ofSettings [settings] verifies with
      | .error cause => .fail loaded (invalidSettings cause)
      | .ok pipeline =>
          match readClass files input with
          | .error failure => .fail loaded failure
          | .ok file =>
              let notices := loaded ++ pipelineNotices pipeline file
              match pipeline.weave file with
              | .error cause => .fail notices (weaveFailure file cause)
              | .ok (woven, report) =>
                  let text := woven.print ++ "\n"
                  match output with
                  | none => ⟨text, summary file report, [], notices, []⟩
                  | some path =>
                      match files.writeError? path with
                      | some cause => .fail notices ["Failed to write " ++ path, cause.message]
                      | none => ⟨"", summary file report, [], notices, [(path, text)]⟩

/-- Prepare the call of a method, of a class that is woven before if that is asked for. -/
def prepareRun (files : Files) (input method : String) (arguments : List Machine.Value)
    (weaves : Bool) (source : SettingsSource) : Progress :=
  match readClass files input with
  | .error failure => .done (.fail [] failure)
  | .ok file =>
      if weaves then
        match loadSettings files source with
        | .error failure => .done (.fail [] failure)
        | .ok settings =>
            let loaded : List Notice := [.settingsLoaded settings]
            match Pipeline.ofSettings [settings] true with
            | .error cause => .done (.fail loaded (invalidSettings cause))
            | .ok pipeline =>
                let notices := loaded ++ pipelineNotices pipeline file
                match pipeline.weave file with
                | .error cause => .done (.fail notices (weaveFailure file cause))
                | .ok (woven, report) =>
                    .call ⟨woven, method, arguments, notices ++ [.wovenBeforeRun report.selected]⟩
      else
        let unused := source.document.isSome || !source.options.isEmpty
        .call ⟨file, method, arguments, if unused then [.settingsUnused] else []⟩

/-- List the methods of a class. -/
def inspect (files : Files) (input : String) (code : Bool) (format : ListingFormat)
    (source : SettingsSource) : Transcript :=
  match loadSettings files source with
  | .error failure => .fail [] failure
  | .ok settings =>
      let loaded : List Notice := [.settingsLoaded settings]
      match settings.validate with
      | .error cause => .fail loaded (invalidSettings cause)
      | .ok () =>
          match readClass files input with
          | .error failure => .fail loaded failure
          | .ok file => ⟨inspection settings code format file, [], [], loaded, []⟩

/-- Carry out a command up to the call it may ask for. -/
def begin (files : Files) : Command → Progress
  | .weave input output verifies source => .done (weave files input output verifies source)
  | .run input method arguments weaves source =>
      prepareRun files input method arguments weaves source
  | .inspect input code format source => .done (inspect files input code format source)

/-- The text of a call's value. -/
def describe (world : Machine.World) (value : Machine.Value) : String :=
  match value with
  | .int value => Text.decimal value.toInt
  | .long value => Text.decimal value.toInt
  | .reference _ =>
      match world.textOf? value with
      | some text => Text.quote text
      | none => "<object>"
  | .top => "<top>"

/-- The line that tells the value of a call; there is none without a value. -/
def valueLine (world : Machine.World) : Option Machine.Value → String
  | none => ""
  | some value => "=> " ++ describe world value ++ "\n"

/-- The causes of a call that failed. -/
def callFailure (method : String) (cause : Machine.CallError) : List String :=
  ["Execution of " ++ method ++ " failed", cause.message] ++
    match cause with
    | .output reason => [reason]
    | _ => []

/-- The transcript of a call that was made: what it printed, then its value. -/
def finish (task : Task) (world : Machine.World)
    (outcome : Except Machine.CallError (Option Machine.Value)) : Transcript :=
  match outcome with
  | .error cause => ⟨world.output, [], callFailure task.method cause, task.notices, []⟩
  | .ok value => ⟨world.output ++ valueLine world value, [], [], task.notices, []⟩

/-- Carry out a command, with a clock to read and a sink for the lines of a call. -/
def perform (files : Files) (clock : Machine.Clock) (sink : Machine.Sink) (command : Command) :
    Transcript :=
  match begin files command with
  | .done transcript => transcript
  | .call task =>
      match (task.session clock sink).invoke task.method task.arguments with
      | (session, outcome) => finish task session.world outcome

end CommandLine
end MethodTracing
