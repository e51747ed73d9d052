import MethodTracing.Proofs.Pipeline.Arrangement

/-!
# Rounds

A pipeline that is given what it has made of a class leaves it alone: a method that it has woven is
marked, and a method that none of its passes selected is selected by none the next time.  So all
rounds after the first change nothing, and no method is woven twice.
-/

namespace MethodTracing

/-! ## What settings leave to themselves -/

namespace Method

variable (passes : List Settings) (method : Method)

/-- What settings make of a method is selected by none of them. -/
@[simp]
theorem isSelectedBy_wovenBy_self :
    (method.wovenBy passes).declaration.isSelectedBy passes = false := by
  cases selected : method.declaration.isSelectedBy passes with
  | true => exact isSelectedBy_wovenBy selected passes
  | false => rw [wovenBy_of_not_selected selected, selected]

@[simp]
theorem wovenBy_wovenBy : (method.wovenBy passes).wovenBy passes = method.wovenBy passes :=
  wovenBy_of_not_selected (isSelectedBy_wovenBy_self passes method)

end Method

namespace ClassFile

variable (passes : List Settings) (file : ClassFile)

@[simp]
theorem wovenBy_wovenBy : (file.wovenBy passes).wovenBy passes = file.wovenBy passes := by
  simp [wovenBy]

theorem weavableBy_wovenBy : (file.wovenBy passes).WeavableBy passes := by
  intro method member selected
  obtain ⟨before, -, rfl⟩ := List.mem_map.mp member
  simp at selected

end ClassFile

namespace Report

/-- What passes count that look at methods and select none of them. -/
def idle (passes methods : Nat) : Report :=
  ⟨passes * methods, 0, 0⟩

theorem ofMethods_wovenBy (passes : List Settings) (file : ClassFile) :
    ofMethods passes (file.wovenBy passes).methods =
      idle passes.length (file.wovenBy passes).methods.length := by
  have unselected : ∀ method ∈ (file.wovenBy passes).methods,
      method.declaration.isSelectedBy passes = false := by
    intro method member
    obtain ⟨before, -, rfl⟩ := List.mem_map.mp member
    exact Method.isSelectedBy_wovenBy_self passes before
  have none_selected : (file.wovenBy passes).methods.filter
      (fun method => method.declaration.isSelectedBy passes) = [] :=
    List.filter_eq_nil_iff.mpr fun method member => by simp [unselected method member]
  have none_counted : (file.wovenBy passes).methods.countP
      (fun method => method.declaration.isSelectedBy passes) = 0 :=
    List.countP_eq_zero.mpr fun method member => by simp [unselected method member]
  simp [ofMethods, idle, none_selected, none_counted]

end Report

namespace Pipeline

/-! ## One round after another -/

/-- Weave a class in rounds, each over the result of the one before it; the answer holds the report
of each round. -/
def weaveRounds (pipeline : Pipeline) :
    Nat → ClassFile → Except PipelineError (ClassFile × List Report)
  | 0, file => .ok (file, [])
  | rounds + 1, file =>
      match pipeline.weave file with
      | .error cause => .error cause
      | .ok (woven, report) =>
          match pipeline.weaveRounds rounds woven with
          | .error cause => .error cause
          | .ok (final, reports) => .ok (final, report :: reports)

/-- What a pipeline has made of a class it leaves as it is. -/
theorem weave_of_weave {pipeline : Pipeline} {file woven : ClassFile} {report : Report}
    (ran : pipeline.weave file = .ok (woven, report)) :
    pipeline.weave woven =
      .ok (woven, .idle pipeline.passes.length woven.methods.length) := by
  obtain ⟨-, accepted, answer_eq⟩ := weave_eq_ok_iff.mp ran
  obtain ⟨rfl, -⟩ := Prod.mk.inj answer_eq
  refine weave_eq_ok_iff.mpr ⟨ClassFile.weavableBy_wovenBy _ file, ?_, ?_⟩
  · -- The methods that were verified in the first round are verified again.
    rw [refused?, ClassFile.wovenBy_wovenBy]
    exact accepted
  · rw [ClassFile.wovenBy_wovenBy, Report.ofMethods_wovenBy]

/-- Rounds over a class that the pipeline leaves as it is leave it as it is. -/
theorem weaveRounds_of_fixed {pipeline : Pipeline} {file : ClassFile} {report : Report}
    (fixed : pipeline.weave file = .ok (file, report)) (rounds : Nat) :
    pipeline.weaveRounds rounds file = .ok (file, List.replicate rounds report) := by
  induction rounds with
  | zero => rfl
  | succ rounds ih => simp only [weaveRounds, fixed, ih, List.replicate_succ]

/-- What a pipeline has made of a class it leaves as it is, in every later round: each method is as
it was in the class, or woven once. -/
theorem weave_again {pipeline : Pipeline} {file woven : ClassFile} {report : Report}
    (ran : pipeline.weave file = .ok (woven, report)) :
    pipeline.weave woven =
      .ok (woven, ⟨pipeline.passes.length * woven.methods.length, 0, 0⟩) ∧
    (∀ rounds, pipeline.weaveRounds (rounds + 1) file =
      .ok (woven, report ::
        List.replicate rounds ⟨pipeline.passes.length * woven.methods.length, 0, 0⟩)) ∧
    List.Forall₂ (Weaves pipeline.passes) file.methods woven.methods := by
  have again := weave_of_weave ran
  refine ⟨again, fun rounds => ?_, (weave_ok ran).2⟩
  rw [weaveRounds, ran]
  simp only [weaveRounds_of_fixed again]
  rfl

/-- Verify what the passes with overlapping markers have woven. -/
def overlappingVerified : Pipeline := ⟨overlapping, true⟩

theorem weave_again_markedFile :
    ∃ woven report, overlappingVerified.weave markedFile = .ok (woven, report) ∧
      overlappingVerified.weave woven =
        .ok (woven, ⟨overlappingVerified.passes.length * woven.methods.length, 0, 0⟩) ∧
      (∀ rounds, overlappingVerified.weaveRounds (rounds + 1) markedFile =
        .ok (woven, report ::
          List.replicate rounds
            ⟨overlappingVerified.passes.length * woven.methods.length, 0, 0⟩)) ∧
      List.Forall₂ (Weaves overlappingVerified.passes) markedFile.methods woven.methods := by
  obtain ⟨woven, report, ran⟩ : ∃ woven report,
      overlappingVerified.weave markedFile = .ok (woven, report) :=
    exists_answer_of_isOk (by decide +kernel)
  exact ⟨woven, report, ran, weave_again ran⟩

end Pipeline
end MethodTracing
