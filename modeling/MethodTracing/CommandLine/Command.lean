import MethodTracing.CommandLine.Argument

/-!
# Commands

What a command line asks for, and the ways in which it can be wrong.
-/

namespace MethodTracing
namespace CommandLine

/-- Where a command finds its settings. -/
structure SettingsSource where
  /-- Path of a settings document. -/
  document : Option String
  /-- Options that are applied after it, in order. -/
  options : List String
  deriving DecidableEq

/-- The form in which methods are listed. -/
inductive ListingFormat
  | text
  | json
  deriving DecidableEq

/-- What a command line asks for. -/
inductive Command
  /-- Weave a class and write it. -/
  | weave (input : String) (output : Option String) (verifies : Bool) (source : SettingsSource)
  /-- Call a method. -/
  | run (input method : String) (arguments : List Machine.Value) (weaves : Bool)
      (source : SettingsSource)
  /-- List methods and whether they are selected. -/
  | inspect (input : String) (code : Bool) (format : ListingFormat) (source : SettingsSource)
  deriving DecidableEq

/-- The files a command reads. -/
def Command.reads : Command → List String
  | .weave input _ _ source => source.document.toList ++ [input]
  | .run input _ _ _ source => input :: source.document.toList
  | .inspect input _ _ source => source.document.toList ++ [input]

/-- A command line that was understood. -/
structure Invocation where
  /-- Whether diagnostics are shown. -/
  debug : Bool
  /-- What is asked for. -/
  command : Command
  deriving DecidableEq

/-- Why a command line is not carried out. -/
inductive UsageError
  | missingRequiredArgument
  | missingSubcommand
  | unknownArgument
  | invalidSubcommand
  /-- A value is missing, empty, or none of the possible ones. -/
  | invalidValue
  /-- A call argument cannot be read. -/
  | valueValidation
  /-- A value is given to an option that takes none. -/
  | tooManyValues
  /-- An option that may come once comes twice. -/
  | argumentConflict
  | displayHelp
  | displayHelpOnMissing
  | displayVersion
  deriving DecidableEq

namespace UsageError

/-- Name of each cause. -/
def name : UsageError → String
  | missingRequiredArgument => "MissingRequiredArgument"
  | missingSubcommand => "MissingSubcommand"
  | unknownArgument => "UnknownArgument"
  | invalidSubcommand => "InvalidSubcommand"
  | invalidValue => "InvalidValue"
  | valueValidation => "ValueValidation"
  | tooManyValues => "TooManyValues"
  | argumentConflict => "ArgumentConflict"
  | displayHelp => "DisplayHelp"
  | displayHelpOnMissing => "DisplayHelpOnMissingArgumentOrSubcommand"
  | displayVersion => "DisplayVersion"

/-- Whether the cause is a wish for information and no mistake. -/
def isWish : UsageError → Bool
  | displayHelp | displayVersion => true
  | _ => false

/-- What is told to the user for each cause. -/
def message : UsageError → String
  | displayVersion => "tejer 0.1.0"
  | displayHelp | displayHelpOnMissing =>
      "Usage: tejer [--debug] <COMMAND>\n\n" ++
        "  weave [-o FILE] [--verify] [-C FILE] [-P KEY=VALUE]... INPUT\n" ++
        "  run -m METHOD [-a VALUE]... [--weave] [-C FILE] [-P KEY=VALUE]... INPUT\n" ++
        "  inspect [--code] [--format text|json] [-C FILE] [-P KEY=VALUE]... INPUT\n" ++
        "  help [COMMAND]"
  | cause => "error: " ++ cause.name

/-- The exit code of a program that ends for the cause. -/
def exitCode (cause : UsageError) : Nat :=
  if cause.isWish then 0 else 2

end UsageError
end CommandLine
end MethodTracing
