import MethodTracing.Pipeline

/-!
# Notices

What the program tells about its work when diagnostics are shown, one line each.
-/

namespace MethodTracing
namespace CommandLine

/-- An event worth a line. -/
inductive Notice
  /-- Settings were put together. -/
  | settingsLoaded (settings : Settings)
  /-- Settings were given but are not used. -/
  | settingsUnused
  /-- A marker stands on a member that cannot be traced. -/
  | markerIgnored (method : String)
  /-- A method was selected. -/
  | markerFound (method : String) (annotations : AnnotationSet)
  /-- The limits that a selected method declares. -/
  | frameDeclared (method : String) (maxStack maxLocals : UInt16)
  /-- A method was woven. -/
  | methodWoven (method : String) (weave : Weave)
  /-- A class passed through a pipeline. -/
  | classWoven (className : String) (passes selected : Nat)
  /-- A class was woven in order to be run. -/
  | wovenBeforeRun (selected : Nat)
  deriving DecidableEq

/-- A number after its name. -/
def numbered (name : String) (value : Nat) : String :=
  " " ++ name ++ "=" ++ Text.decimal value

/-- The line of a notice: its level, the part of the program it comes from, and its words. -/
def Notice.line : Notice → String
  | .settingsLoaded settings =>
      "DEBUG tejer: instrumentation config enabled=" ++
        (if settings.enabled then "true" else "false") ++ " markers=" ++
        Text.quoteList settings.markers
  | .settingsUnused =>
      "WARN tejer: instrumentation options given without --weave; running the class as-is"
  | .markerIgnored method =>
      "WARN tejer::builder: marker annotation on a non-function member is ignored method=" ++ method
  | .markerFound method annotations =>
      "INFO tejer::builder: function has a tracing marker method=" ++ method ++
        " annotations=AnnotationSet(" ++ Text.quoteList annotations.names ++ ")"
  | .frameDeclared method maxStack maxLocals =>
      "DEBUG tejer::builder: declared frame method=" ++ method ++
        numbered "max_stack" maxStack.toNat ++ numbered "max_locals" maxLocals.toNat
  | .methodWoven method weave =>
      "DEBUG tejer::weaver: woven method method=" ++ method ++
        numbered "start_slot" weave.plan.startSlot.toNat ++
        numbered "end_slot" weave.plan.endSlot.toNat ++
        numbered "max_stack" weave.plan.maxStack.toNat ++
        numbered "max_locals" weave.plan.maxLocals.toNat ++
        numbered "exit_sites" weave.exitSites
  | .classWoven className passes selected =>
      "DEBUG tejer::pipeline: class woven class=" ++ className ++ numbered "passes" passes ++
        numbered "selected" selected
  | .wovenBeforeRun selected =>
      "INFO tejer: class woven before run" ++ numbered "woven" selected

/-- What a pass tells about a class with the given methods; it ends with the first that fails. -/
def passNotices (settings : Settings) : List Method → List Notice
  | [] => []
  | method :: rest =>
      let name := method.declaration.qualifiedName
      match settings.rejection? method.declaration with
      | none =>
          .markerFound name method.declaration.annotations ::
            .frameDeclared name method.maxStack method.maxLocals ::
            match method.instrument.outcome with
            | .error _ => []
            | .ok weave => .methodWoven name weave :: passNotices settings rest
      | some .notAFunction | some .missingDescriptor =>
          if settings.marks method.declaration then
            .markerIgnored name :: passNotices settings rest
          else passNotices settings rest
      | some _ => passNotices settings rest

/-- What passes tell about a class; they end with the first that fails. -/
def passesNotices (file : ClassFile) : List Settings → List Notice
  | [] => []
  | settings :: rest =>
      passNotices settings file.methods ++
        match Pipeline.runPass settings file with
        | .error _ => []
        | .ok (file, _) => passesNotices file rest

/-- What a pipeline tells about a class. -/
def pipelineNotices (pipeline : Pipeline) (file : ClassFile) : List Notice :=
  passesNotices file pipeline.passes ++
    match pipeline.weave file with
    | .error _ => []
    | .ok (_, report) => [.classWoven file.name pipeline.passes.length report.selected]

end CommandLine
end MethodTracing
