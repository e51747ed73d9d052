import Mathlib.Data.List.Forall2
import MethodTracing.Pipeline
import MethodTracing.Proofs.Assembly.Chains

/-!
# Passes

A pass builds a class through a chain of one layer, so passes one after another do what their
settings do one after another: a method that one of them selects is instrumented once, and all
others stay as they are.  Passes succeed if every method that one of them selects can be
instrumented; what they make of a class depends on the selected methods only.
-/

namespace MethodTracing
namespace Pipeline

/-- One pass that selects the methods marked as timed. -/
def timed : Pipeline := ⟨[⟨true, ["Timed"]⟩], false⟩

/-- Whether some pass of a pipeline selects a declaration. -/
def selects (pipeline : Pipeline) (declaration : Declaration) : Bool :=
  pipeline.passes.any fun settings => settings.selects declaration

/-! ## One pass after another -/

/-- A pass succeeds exactly if every method that it selects can be instrumented. -/
theorem runPass_cases (settings : Settings) (file : ClassFile) :
    (file.WeavableBy [settings] ∧
      runPass settings file = .ok (file.wovenBy [settings], .ofMethods [settings] file.methods)) ∨
    ¬file.WeavableBy [settings] ∧ ∃ cause, runPass settings file = .error cause := by
  rcases Assembly.Chain.accept_cases [.tracing settings .zero] file with
    ⟨weavable, after, accepted, classes_eq, report_eq⟩ | ⟨unweavable, after, cause, failed⟩
  · refine Or.inl ⟨weavable, ?_⟩
    have counted : Assembly.total [.tracing settings .zero] = .zero := rfl
    rw [counted, Report.zero_merge] at report_eq
    rw [runPass, accepted]
    simp only [classes_eq, report_eq]
    rfl
  · exact Or.inr ⟨unweavable, cause, by rw [runPass, failed]⟩

theorem runPasses_eq_ok_iff {passes : List Settings} {file : ClassFile} {report : Report}
    {answer : ClassFile × Report} :
    runPasses report file passes = .ok answer ↔
      file.WeavableBy passes ∧
        answer = (file.wovenBy passes, report.merge (.ofMethods passes file.methods)) := by
  induction passes generalizing file report with
  | nil =>
      simp [runPasses, ClassFile.wovenBy_nil, ClassFile.weavableBy_nil,
        Report.ofMethods_no_passes, eq_comm]
  | cons settings rest ih =>
      rw [runPasses, ClassFile.weavableBy_cons settings rest, ClassFile.wovenBy_cons settings rest,
        Report.ofMethods_cons_pass settings rest, ← Report.merge_assoc]
      rcases runPass_cases settings file with ⟨weavable, ran⟩ | ⟨unweavable, cause, failed⟩
      · rw [ran, and_iff_right weavable]
        exact ih
      · simp [failed, unweavable]

/-- The first method that a pipeline has woven into a class and that does not verify, if the
pipeline verifies. -/
def refused? (pipeline : Pipeline) (file : ClassFile) : Option PipelineError :=
  if pipeline.verifies then unverified? (file.wovenBy pipeline.passes).methods else none

theorem weave_of_weavable {pipeline : Pipeline} {file : ClassFile}
    (weavable : file.WeavableBy pipeline.passes) :
    pipeline.weave file =
      match pipeline.refused? file with
      | some cause => .error cause
      | none => .ok (file.wovenBy pipeline.passes, .ofMethods pipeline.passes file.methods) := by
  rw [weave, runPasses_eq_ok_iff.mpr ⟨weavable, rfl⟩, Report.zero_merge, refused?]
  cases pipeline.verifies <;> rfl

theorem weave_of_not_weavable {pipeline : Pipeline} {file : ClassFile}
    (unweavable : ¬file.WeavableBy pipeline.passes) :
    ∃ cause, pipeline.weave file = .error (.weave cause) := by
  rw [weave]
  cases ran : runPasses .zero file pipeline.passes with
  | error cause => exact ⟨cause, rfl⟩
  | ok answer => exact absurd (runPasses_eq_ok_iff.mp ran).1 unweavable

/-- A pipeline succeeds exactly if every method that it selects can be instrumented and no woven
method is refused. -/
theorem weave_eq_ok_iff {pipeline : Pipeline} {file : ClassFile} {answer : ClassFile × Report} :
    pipeline.weave file = .ok answer ↔
      file.WeavableBy pipeline.passes ∧ pipeline.refused? file = none ∧
        answer = (file.wovenBy pipeline.passes, .ofMethods pipeline.passes file.methods) := by
  by_cases weavable : file.WeavableBy pipeline.passes
  · rw [weave_of_weavable weavable, and_iff_right weavable]
    cases pipeline.refused? file <;> simp [eq_comm]
  · obtain ⟨cause, failed⟩ := weave_of_not_weavable weavable
    simp [failed, weavable]

theorem exists_answer_of_isOk {pipeline : Pipeline} {file : ClassFile}
    (succeeds : (pipeline.weave file).isOk = true) :
    ∃ woven report, pipeline.weave file = .ok (woven, report) := by
  cases ran : pipeline.weave file with
  | error cause => simp [ran, Except.isOk, Except.toBool] at succeeds
  | ok answer => exact ⟨answer.1, answer.2, rfl⟩

/-! ## Method by method -/

/-- What passes make of a method: if one of them selects it, it is instrumented once. -/
def Weaves (passes : List Settings) (before after : Method) : Prop :=
  if passes.any fun settings => settings.selects before.declaration then
    ∃ plan, Instrumented before after plan
  else after = before

/-- A method is selected and instrumented, or it is neither. -/
theorem Weaves.selected_or_eq {pipeline : Pipeline} {before after : Method}
    (weaves : Weaves pipeline.passes before after) :
    (pipeline.selects before.declaration = true ∧ ∃ plan, Instrumented before after plan) ∨
      pipeline.selects before.declaration = false ∧ after = before := by
  unfold Weaves at weaves
  split at weaves
  · rename_i selected
    exact Or.inl ⟨selected, weaves⟩
  · rename_i not_selected
    exact Or.inr ⟨Bool.eq_false_iff.mpr not_selected, weaves⟩

theorem weaves_wovenBy {passes : List Settings} {method : Method}
    (weavable : method.WeavableBy passes) : Weaves passes method (method.wovenBy passes) := by
  unfold Weaves
  split
  · rename_i selected
    obtain ⟨weave, instrumented⟩ := weavable.instrument_eq selected
    rw [Method.wovenBy_of_selected selected]
    exact ⟨weave.plan, (Method.instrument_eq_ok instrumented).1.tagTraced⟩
  · rename_i not_selected
    exact Method.wovenBy_of_not_selected (Bool.eq_false_iff.mpr not_selected)

/-- A method of the result comes from one of the class. -/
theorem Weaves.exists_before {passes : List Settings} {methods woven : List Method}
    (related : List.Forall₂ (Weaves passes) methods woven) {after : Method}
    (member : after ∈ woven) : ∃ before ∈ methods, Weaves passes before after := by
  induction related with
  | nil => simp at member
  | cons weaves _ ih =>
      rcases List.mem_cons.mp member with rfl | member
      · exact ⟨_, List.mem_cons_self, weaves⟩
      · obtain ⟨before, before_member, weaves⟩ := ih member
        exact ⟨before, List.mem_cons_of_mem _ before_member, weaves⟩

/-- A pipeline leaves each method in its place, as it was or instrumented once. -/
theorem weave_ok {pipeline : Pipeline} {file woven : ClassFile} {report : Report}
    (ran : pipeline.weave file = .ok (woven, report)) :
    woven.name = file.name ∧ List.Forall₂ (Weaves pipeline.passes) file.methods woven.methods := by
  obtain ⟨weavable, -, answer_eq⟩ := weave_eq_ok_iff.mp ran
  obtain ⟨rfl, -⟩ := Prod.mk.inj answer_eq
  refine ⟨rfl, List.forall₂_map_right_iff.mpr (List.forall₂_same.mpr fun method member => ?_)⟩
  exact weaves_wovenBy (weavable method member)

end Pipeline
end MethodTracing
