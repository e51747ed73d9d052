import MethodTracing.Method
import MethodTracing.Settings.Basic

/-!
# Selection

A method is selected when it is an ordinary function of known type, is not woven yet, and carries a
marker annotation.  Otherwise the first reason that applies is given.
-/

namespace MethodTracing

/-- Why a method is not selected. -/
inductive Rejection
  | disabled
  | notAFunction
  | missingDescriptor
  | alreadyTraced
  | noMarker
  deriving DecidableEq

/-- The wording of each reason. -/
def Rejection.message : Rejection → String
  | .disabled => "instrumentation disabled"
  | .notAFunction => "not a function"
  | .missingDescriptor => "no descriptor"
  | .alreadyTraced => "already traced"
  | .noMarker => "no marker annotation"

/-- Name of each reason in documents. -/
def Rejection.name : Rejection → String
  | .disabled => "disabled"
  | .notAFunction => "not_a_function"
  | .missingDescriptor => "missing_descriptor"
  | .alreadyTraced => "already_traced"
  | .noMarker => "no_marker"

namespace Settings

/-- Whether a method carries a marker annotation. -/
def marks (settings : Settings) (declaration : Declaration) : Bool :=
  declaration.annotations.names.any settings.isMarker

/-- The first reason for which a method is not selected. -/
def rejection? (settings : Settings) (declaration : Declaration) : Option Rejection :=
  if !settings.enabled then some .disabled
  else if declaration.kind ≠ .function then some .notAFunction
  else if declaration.type.isNone then some .missingDescriptor
  else if declaration.isTraced then some .alreadyTraced
  else if !settings.marks declaration then some .noMarker
  else none

/-- Whether a method is selected. -/
def selects (settings : Settings) (declaration : Declaration) : Bool :=
  (settings.rejection? declaration).isNone

variable {settings : Settings} {declaration : Declaration}

theorem selects_iff :
    settings.selects declaration ↔
      settings.enabled ∧ declaration.kind = .function ∧ declaration.type.isSome ∧
        ¬declaration.isTraced ∧ settings.marks declaration := by
  simp only [selects, rejection?]
  repeat' split
  all_goals simp_all [Option.isSome_iff_ne_none]

theorem marks_iff :
    settings.marks declaration ↔
      ∃ name ∈ declaration.annotations.names,
        normalizeName name ∈ settings.markers.map normalizeName := by
  simp only [marks, isMarker, List.any_eq_true, List.mem_map, beq_iff_eq]

end Settings
end MethodTracing
