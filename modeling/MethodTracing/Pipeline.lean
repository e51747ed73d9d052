import MethodTracing.Assembly.Chain
import MethodTracing.Verification

/-!
# Pipelines

A pipeline weaves a class by several passes, each over the result of the one before it, and may
verify the woven methods in the end.  A method woven by one pass is left alone by later ones.
-/

namespace MethodTracing

/-- Why a class cannot be woven. -/
inductive PipelineError
  /-- A method cannot be woven. -/
  | weave (cause : WeaveError)
  /-- The named method does not verify after weaving. -/
  | verify (method : String) (cause : VerifyError)
  deriving DecidableEq

/-- The wording of each cause. -/
def PipelineError.message : PipelineError → String
  | .weave cause => cause.message
  | .verify method cause => "woven method " ++ method ++ " failed verification: " ++ cause.message

/-- The passes of a pipeline. -/
structure Pipeline where
  /-- The settings of each pass, in order; all are valid and switched on. -/
  passes : List Settings
  /-- Whether woven methods are verified. -/
  verifies : Bool
  deriving DecidableEq

namespace Pipeline

/-- The pipeline that leaves every class as it is. -/
def empty : Pipeline := ⟨[], false⟩

/-- Append a pass.  Settings that are switched off add none, but must be valid too. -/
def addPass (pipeline : Pipeline) (settings : Settings) : Except SettingsError Pipeline :=
  match settings.validate with
  | .error cause => .error cause
  | .ok () =>
      if settings.enabled then .ok { pipeline with passes := pipeline.passes ++ [settings] }
      else .ok pipeline

/-- Append passes one after another. -/
def addPasses (pipeline : Pipeline) : List Settings → Except SettingsError Pipeline
  | [] => .ok pipeline
  | settings :: rest =>
      match pipeline.addPass settings with
      | .error cause => .error cause
      | .ok pipeline => pipeline.addPasses rest

/-- The pipeline of the given settings. -/
def ofSettings (settings : List Settings) (verifies : Bool) : Except SettingsError Pipeline :=
  addPasses ⟨[], verifies⟩ settings

/-- Weave a class by one pass. -/
def runPass (settings : Settings) (file : ClassFile) : Except WeaveError (ClassFile × Report) :=
  match (Assembly.Chain.ofLayers [.tracing settings .zero]).accept file with
  | (_, .error cause) => .error cause
  | (chain, .ok ()) => .ok (chain.writer.classes.getLastD ⟨file.name, []⟩, chain.report)

/-- Weave a class by passes one after another, where `report` holds the counts so far. -/
def runPasses (report : Report) (file : ClassFile) :
    List Settings → Except WeaveError (ClassFile × Report)
  | [] => .ok (file, report)
  | settings :: rest =>
      match runPass settings file with
      | .error cause => .error cause
      | .ok (file, counts) => runPasses (report.merge counts) file rest

/-- The first woven method that does not verify, with the cause. -/
def unverified? : List Method → Option PipelineError
  | [] => none
  | method :: rest =>
      if method.declaration.isTraced then
        match method.verify with
        | .error cause => some (.verify method.declaration.qualifiedName cause)
        | .ok _ => unverified? rest
      else unverified? rest

/-- Weave a class. -/
def weave (pipeline : Pipeline) (file : ClassFile) : Except PipelineError (ClassFile × Report) :=
  match runPasses .zero file pipeline.passes with
  | .error cause => .error (.weave cause)
  | .ok (woven, report) =>
      if pipeline.verifies then
        match unverified? woven.methods with
        | some cause => .error cause
        | none => .ok (woven, report)
      else .ok (woven, report)

end Pipeline
end MethodTracing
