import MethodTracing.Annotation
import MethodTracing.Text.Quoted

/-!
# Settings

Which methods are to be traced: a switch and a list of marker annotations.  Settings are changed
one `KEY=VALUE` option at a time; switched on, they must name at least one marker.
-/

namespace MethodTracing

/-- Why settings, or an option that changes them, are refused. -/
inductive SettingsError
  /-- Tracing is switched on without a marker. -/
  | emptyMarkers
  /-- No setting has the option's key. -/
  | unexpectedOption (key : String)
  /-- The option's value is neither true nor false. -/
  | invalidValue (option value : String)
  /-- The option has no equals sign. -/
  | malformedOption (option : String)
  deriving DecidableEq

/-- The wording of each cause. -/
def SettingsError.message : SettingsError → String
  | .emptyMarkers => "method tracing is enabled, but no annotations were set"
  | .unexpectedOption key => "unexpected config option " ++ key
  | .invalidValue option value =>
      "invalid value " ++ Text.quote value ++ " for option " ++ option ++
        " (expected true or false)"
  | .malformedOption option =>
      "malformed plugin option " ++ Text.quote option ++ ": expected KEY=VALUE"

/-- Which methods are to be traced. -/
structure Settings where
  /-- Whether tracing is switched on. -/
  enabled : Bool
  /-- Marker annotations in the order they were given, spelled as they were given. -/
  markers : List String
  deriving DecidableEq

/-- Key of the switch. -/
def enabledKey : String := "enabled"

/-- Key of the marker annotations. -/
def annotationsKey : String := "annotations"

/-- A character with ASCII capitals made small. -/
def lowerAscii (char : Char) : Char :=
  if 'A' ≤ char ∧ char ≤ 'Z' then Char.ofNat (char.toNat + 32) else char

/-- Read a truth value, in any mixture of ASCII capitals and small letters. -/
def readTruth? (value : String) : Option Bool :=
  let word := (Text.trimChars value.toList).map lowerAscii
  if word = "true".toList then some true
  else if word = "false".toList then some false
  else none

namespace Settings

/-- Tracing switched off, without markers. -/
def initial : Settings := ⟨false, []⟩

/-- Apply one option: the switch is overwritten, a marker is added at the end. -/
def applyOption (settings : Settings) (key value : String) : Except SettingsError Settings :=
  let key := Text.trim key
  if key = enabledKey then
    match readTruth? value with
    | some enabled => .ok { settings with enabled }
    | none => .error (.invalidValue enabledKey value)
  else if key = annotationsKey then
    .ok { settings with markers := settings.markers ++ [Text.trim value] }
  else .error (.unexpectedOption key)

/-- Apply one option written `KEY=VALUE`; the first equals sign divides it. -/
def applyOptionText (settings : Settings) (option : String) : Except SettingsError Settings :=
  let chars := option.toList
  match chars.dropWhile (· != '=') with
  | [] => .error (.malformedOption option)
  | _ :: value =>
      settings.applyOption (String.ofList (chars.takeWhile (· != '='))) (String.ofList value)

/-- Settings are refused when tracing is switched on and all markers are blank. -/
def validate (settings : Settings) : Except SettingsError Unit :=
  if settings.enabled && settings.markers.all (fun marker => (Text.trim marker).isEmpty) then
    .error .emptyMarkers
  else .ok ()

/-- Whether a name is the name of a marker, however both are spelled. -/
def isMarker (settings : Settings) (name : String) : Bool :=
  settings.markers.any fun marker => normalizeName marker == normalizeName name

end Settings
end MethodTracing
