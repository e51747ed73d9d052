import MethodTracing.CommandLine.Command

/-!
# Reading command lines

Words are read from left to right.  The value of an option that is given in the next word, and an
input path, are only examined when the next option or path comes or at the end; an unknown option
is reported before a value that still waits.
-/

namespace MethodTracing
namespace CommandLine

/-- An option. -/
inductive OptionName
  | debug
  | help
  | version
  | document
  | setting
  | output
  | verify
  | method
  | argument
  | weave
  | code
  | format
  deriving DecidableEq

/-- How an option is written and what it takes. -/
structure OptionForm where
  /-- The option. -/
  name : OptionName
  /-- Its letter, after one dash. -/
  short : Option Char
  /-- Its word, after two dashes. -/
  long : String
  /-- Whether it takes a value. -/
  takesValue : Bool
  /-- Whether it may come more than once. -/
  repeatable : Bool
  /-- Whether its value may begin with a dash. -/
  dashValues : Bool

/-- An option that takes no value. -/
def OptionForm.flag (name : OptionName) (short : Option Char) (long : String) : OptionForm :=
  ⟨name, short, long, false, false, false⟩

/-- An option that takes a value and may come once. -/
def OptionForm.single (name : OptionName) (short : Option Char) (long : String) : OptionForm :=
  ⟨name, short, long, true, false, false⟩

/-- The commands by their words. -/
inductive CommandWord
  | weave
  | run
  | inspect
  | help
  deriving DecidableEq

/-- The command of a word. -/
def commandWord? : String → Option CommandWord
  | "weave" => some .weave
  | "run" => some .run
  | "inspect" => some .inspect
  | "help" => some .help
  | _ => none

/-- Options in front of the command. -/
def outerOptions : List OptionForm :=
  [.flag .debug none "debug", .flag .help (some 'h') "help", .flag .version (some 'V') "version"]

/-- Options of every command. -/
def sharedOptions : List OptionForm :=
  [.flag .debug none "debug", .flag .help (some 'h') "help",
    .single .document (some 'C') "config",
    ⟨.setting, some 'P', "plugin-option", true, true, false⟩]

/-- Options of a command. -/
def commandOptions : CommandWord → List OptionForm
  | .weave => .single .output (some 'o') "output" :: .flag .verify none "verify" :: sharedOptions
  | .run =>
      .single .method (some 'm') "method" ::
        ⟨.argument, some 'a', "arg", true, true, true⟩ :: .flag .weave none "weave" :: sharedOptions
  | .inspect => .flag .code none "code" :: .single .format none "format" :: sharedOptions
  | .help => []

/-- Something that waits to be examined. -/
inductive Waiting
  /-- An option, with its value if that was read. -/
  | option (form : OptionForm) (value : Option String)
  /-- The input path. -/
  | input (path : String)

/-- What was read of a command's words. -/
structure Reading where
  /-- Accepted options with their values, in order; a flag has an empty value. -/
  accepted : List (OptionName × String)
  /-- The accepted input path. -/
  input : Option String
  /-- What waits to be examined. -/
  waiting : Option Waiting
  /-- Whether an input path was read, accepted or waiting. -/
  hasInput : Bool

namespace Reading

/-- Nothing is read. -/
def empty : Reading := ⟨[], none, none, false⟩

/-- Whether an option was accepted. -/
def has (reading : Reading) (name : OptionName) : Bool :=
  reading.accepted.any fun option => option.1 == name

/-- The first value of an option. -/
def value? (reading : Reading) (name : OptionName) : Option String :=
  (reading.accepted.find? fun option => option.1 == name).map Prod.snd

/-- All values of an option, in order. -/
def values (reading : Reading) (name : OptionName) : List String :=
  (reading.accepted.filter fun option => option.1 == name).map Prod.snd

end Reading

/-- The listing format of a word. -/
def listingFormat? : String → Option ListingFormat
  | "text" => some .text
  | "json" => some .json
  | _ => none

/-- Whether an option takes a value, or why it does not. -/
def checkValue (name : OptionName) (value : String) : Except UsageError Unit :=
  match name with
  | .document | .output => if value.isEmpty then .error .invalidValue else .ok ()
  | .format => if (listingFormat? value).isSome then .ok () else .error .invalidValue
  | .argument => if (readArgument value).isOk then .ok () else .error .valueValidation
  | _ => .ok ()

/-- Accept an option with its value. -/
def acceptOption (reading : Reading) (form : OptionForm) (value : String) :
    Except UsageError Reading :=
  if !form.repeatable && reading.has form.name then .error .argumentConflict
  else
    match checkValue form.name value with
    | .error cause => .error cause
    | .ok () => .ok { reading with accepted := reading.accepted ++ [(form.name, value)] }

/-- Examine what waits. -/
def settle (reading : Reading) : Except UsageError Reading :=
  let rest := { reading with waiting := none }
  match reading.waiting with
  | none => .ok rest
  | some (.option _ none) => .error .invalidValue
  | some (.option form (some value)) => acceptOption rest form value
  | some (.input path) =>
      if path.isEmpty then .error .invalidValue else .ok { rest with input := some path }

/-- Take an option that takes no value. -/
def takeFlag (reading : Reading) (form : OptionForm) : Except UsageError Reading :=
  match settle reading with
  | .error cause => .error cause
  | .ok reading =>
      match form.name with
      | .help => .error .displayHelp
      | .version => .error .displayVersion
      | _ => acceptOption reading form ""

/-- Take an option that takes a value, given with it or to be given by the next word. -/
def takeOption (reading : Reading) (form : OptionForm) (value : Option String) :
    Except UsageError Reading :=
  match settle reading with
  | .error cause => .error cause
  | .ok reading =>
      match value with
      | some value => acceptOption reading form value
      | none => .ok { reading with waiting := some (.option form none) }

/-- Take a word that begins with two dashes, which are removed. -/
def takeLong (forms : List OptionForm) (reading : Reading) (word : List Char) :
    Except UsageError Reading :=
  let name := String.ofList (word.takeWhile (· != '='))
  let value : Option String :=
    match word.dropWhile (· != '=') with
    | [] => none
    | _ :: value => some (String.ofList value)
  match forms.find? fun form => form.long == name with
  | none => .error .unknownArgument
  | some form =>
      if form.takesValue then takeOption reading form value
      else if value.isSome then .error .tooManyValues
      else takeFlag reading form

/-- Take a word that begins with one dash, which is removed.  Letters of options without values may
be joined; the rest after the letter of another is its value. -/
def takeShort (forms : List OptionForm) (reading : Reading) :
    List Char → Except UsageError Reading
  | [] => .ok reading
  | letter :: rest =>
      match forms.find? fun form => form.short == some letter with
      | none => .error .unknownArgument
      | some form =>
          if form.takesValue then
            match rest with
            | [] => takeOption reading form none
            | '=' :: value => takeOption reading form (some (String.ofList value))
            | value => takeOption reading form (some (String.ofList value))
          else
            match takeFlag reading form with
            | .error cause => .error cause
            | .ok reading => takeShort forms reading rest

/-- Take an input path. -/
def takeInput (reading : Reading) (path : String) : Except UsageError Reading :=
  if reading.hasInput then .error .unknownArgument
  else
    match settle reading with
    | .error cause => .error cause
    | .ok reading => .ok { reading with waiting := some (.input path), hasInput := true }

/-- Take a word that is no option: the value of a waiting option, or an input path. -/
def takePlain (reading : Reading) (word : String) : Except UsageError Reading :=
  match reading.waiting with
  | some (.option form none) => .ok { reading with waiting := some (.option form (some word)) }
  | _ => takeInput reading word

/-- Whether the waiting option takes any word as its value. -/
def awaitsAnyWord (reading : Reading) : Bool :=
  match reading.waiting with
  | some (.option form none) => form.dashValues
  | _ => false

/-- Take one word in front of a lone double dash. -/
def takeWord (forms : List OptionForm) (reading : Reading) (word : String) :
    Except UsageError Reading :=
  if awaitsAnyWord reading then takePlain reading word
  else
    match word.toList with
    | '-' :: '-' :: long => takeLong forms reading long
    | '-' :: letter :: letters => takeShort forms reading (letter :: letters)
    | _ => takePlain reading word

/-- Take the words of a command; after a lone double dash all words are paths. -/
def takeWords (forms : List OptionForm) (onlyPaths : Bool) (reading : Reading) :
    List String → Except UsageError Reading
  | [] => settle reading
  | word :: rest =>
      if onlyPaths then
        match takeInput reading word with
        | .error cause => .error cause
        | .ok reading => takeWords forms true reading rest
      else if word == "--" && !awaitsAnyWord reading then takeWords forms true reading rest
      else
        match takeWord forms reading word with
        | .error cause => .error cause
        | .ok reading => takeWords forms false reading rest

/-- Call arguments that were examined before. -/
def readArguments (words : List String) : List Machine.Value :=
  words.filterMap fun word => (readArgument word).toOption

/-- The command that was read. -/
def assemble (word : CommandWord) (reading : Reading) : Except UsageError Command :=
  let source : SettingsSource := ⟨reading.value? .document, reading.values .setting⟩
  match reading.input with
  | none => .error .missingRequiredArgument
  | some input =>
      match word with
      | .weave => .ok (.weave input (reading.value? .output) (reading.has .verify) source)
      | .run =>
          match reading.value? .method with
          | none => .error .missingRequiredArgument
          | some method =>
              .ok (.run input method (readArguments (reading.values .argument))
                (reading.has .weave) source)
      | .inspect =>
          .ok (.inspect input (reading.has .code)
            (((reading.value? .format).bind listingFormat?).getD .text) source)
      | .help => .error .displayHelp

/-- What the help command answers when it is asked about commands. -/
def helpOutcome : List String → UsageError
  | [] => .displayHelp
  | [word] => if (commandWord? word).isSome then .displayHelp else .invalidSubcommand
  | _ => .invalidSubcommand

/-- Read the words of a command. -/
def parseCommand (debug : Bool) (word : CommandWord) (words : List String) :
    Except UsageError Invocation :=
  if word = .help then .error (helpOutcome words)
  else
    match takeWords (commandOptions word) false .empty words with
    | .error cause => .error cause
    | .ok reading =>
        match assemble word reading with
        | .error cause => .error cause
        | .ok command => .ok ⟨debug || reading.has .debug, command⟩

/-- Read the words in front of a command, then the command. -/
def parseOuter (onlyPaths : Bool) (reading : Reading) :
    List String → Except UsageError Invocation
  | [] => .error (if reading.has .debug then .missingSubcommand else .displayHelpOnMissing)
  | word :: rest =>
      match commandWord? word with
      | some command =>
          if onlyPaths then .error .unknownArgument
          else parseCommand (reading.has .debug) command rest
      | none =>
          if onlyPaths then .error .invalidSubcommand
          else if word == "--" then parseOuter true reading rest
          else
            match word.toList with
            | '-' :: '-' :: long =>
                match takeLong outerOptions reading long with
                | .error cause => .error cause
                | .ok reading => parseOuter false reading rest
            | '-' :: letter :: letters =>
                match takeShort outerOptions reading (letter :: letters) with
                | .error cause => .error cause
                | .ok reading => parseOuter false reading rest
            | _ => .error .invalidSubcommand

/-- Read a command line, the name of the program excluded. -/
def parse (words : List String) : Except UsageError Invocation :=
  parseOuter false .empty words

end CommandLine
end MethodTracing
