import MethodTracing.Proofs.Pipeline.Arrangement

/-!
# A single pass

A pass builds a class through a chain that marks a method first, holds its body back and replays it
once it is woven.  It comes to the same as weaving each method in its place: the same methods can be
woven, with the same results, and the first one that cannot be woven gives the same cause.
-/

namespace MethodTracing

/-! ## Methods that can be woven -/

/-- A frame can be planned if both limits leave room for four more slots. -/
theorem FramePlan.exists_ofLimits_iff {maxStack maxLocals : UInt16} :
    (∃ plan, ofLimits maxStack maxLocals = .ok plan) ↔
      maxLocals.toNat ≤ 65531 ∧ maxStack.toNat ≤ 65531 := by
  have injected : injectedDepth = 4 := by decide
  simp only [ofLimits, injected, timestampSlots, slotCeiling]
  split
  · simp
    omega
  · split
    · simp
      omega
    · simp
      omega

namespace Method

variable {settings : Settings} {passes : List Settings} {method : Method}

/-- A method can be instrumented if its limits leave room and its labels are in order. -/
theorem exists_instrument_iff :
    (∃ weave, method.instrument.outcome = .ok weave) ↔
      method.maxLocals.toNat ≤ 65531 ∧ method.maxStack.toNat ≤ 65531 ∧
        Flow.WellLabelled method.instructions := by
  rw [← and_assoc, ← FramePlan.exists_ofLimits_iff]
  constructor
  · rintro ⟨weave, outcome_eq⟩
    have woven : method.instrument = ⟨method.instrument.method, .ok weave⟩ := by rw [← outcome_eq]
    obtain ⟨planned, labelled, -⟩ := instrument_eq_traced_iff.mp woven
    exact ⟨⟨weave.plan, planned⟩, labelled⟩
  · rintro ⟨⟨plan, planned⟩, labelled⟩
    have woven : method.instrument = ⟨_, .ok ⟨plan, method.returnCount⟩⟩ :=
      instrument_eq_traced_iff.mpr ⟨planned, labelled, rfl, rfl⟩
    exact ⟨⟨plan, method.returnCount⟩, by rw [woven]⟩

/-! ## Weaving in place -/

/-- Weaving a method in place succeeds if it can be instrumented or is not selected. -/
theorem exists_weave_iff :
    (∃ outcome, (method.weave settings).outcome = .ok outcome) ↔ method.WeavableBy [settings] := by
  rw [weave, WeavableBy]
  cases selected : settings.selects method.declaration with
  | false => simp [selected]
  | true =>
      rcases instrumented : method.instrument with ⟨after, cause | outcome⟩
      all_goals simp [selected]

theorem weave_outcome_eq_error_iff {cause : WeaveError} :
    (method.weave settings).outcome = .error cause ↔ method.FailsBy [settings] cause := by
  rw [weave, FailsBy]
  cases selected : settings.selects method.declaration with
  | false => simp [selected]
  | true =>
      rcases instrumented : method.instrument with ⟨after, other | outcome⟩
      all_goals simp [selected]

/-- What weaving in place makes of a method is what the settings make of it. -/
theorem weave_method_eq (weavable : method.WeavableBy [settings]) :
    (method.weave settings).method = method.wovenBy [settings] := by
  rw [weave]
  cases selected : settings.selects method.declaration with
  | false =>
      rw [wovenBy_of_not_selected (by simp [selected])]
      simp
  | true =>
      obtain ⟨outcome, instrumented⟩ := weavable.instrument_eq (by simp [selected])
      rw [if_pos rfl, wovenBy_of_selected (by simp [selected]), instrumented]

/-- An instrumented body is longer than it was. -/
theorem wovenBy_ne_iff (weavable : method.WeavableBy passes) :
    method.wovenBy passes ≠ method ↔ method.declaration.isSelectedBy passes = true := by
  cases selected : method.declaration.isSelectedBy passes with
  | false => simp [wovenBy_of_not_selected selected]
  | true =>
      obtain ⟨outcome, instrumented⟩ := weavable.instrument_eq selected
      have body_eq := (instrument_eq_ok instrumented).1.instructions
      rw [wovenBy_of_selected selected]
      simp only [ne_eq, iff_true]
      intro unchanged
      have same : method.instrument.method.tagTraced.instructions = method.instructions :=
        congrArg Method.instructions unchanged
      have longer := congrArg List.length (body_eq.symm.trans same)
      simp only [Weaving.length_traced, Weaving.offset] at longer
      omega

end Method

/-! ## Weaving a class -/

namespace Pipeline

variable {settings : Settings} {file : ClassFile}

/-- The first method of a class that fails gives the cause for which a pass fails. -/
theorem runPass_error {before after : List Method} {method : Method} {cause : WeaveError}
    (methods_eq : file.methods = before ++ method :: after)
    (weavable : ∀ each ∈ before, each.WeavableBy [settings])
    (fails : method.FailsBy [settings] cause) : runPass settings file = .error cause := by
  obtain ⟨left, failed⟩ :=
    Assembly.Chain.accept_error [.tracing settings .zero] methods_eq weavable fails
  rw [runPass, failed]

theorem weave_pass_eq_ok_iff {answer : ClassFile × Report} :
    weave ⟨[settings], false⟩ file = .ok answer ↔
      file.WeavableBy [settings] ∧
        answer = (file.wovenBy [settings], .ofMethods [settings] file.methods) := by
  rw [weave_eq_ok_iff, refused?, if_neg Bool.false_ne_true, eq_self, true_and]

/-- A pass fails for the first method of a class that fails. -/
theorem weave_pass_eq_error_iff {cause : PipelineError} :
    weave ⟨[settings], false⟩ file = .error cause ↔
      ∃ (before : List Method) (method : Method) (after : List Method) (reason : WeaveError),
        file.methods = before ++ method :: after ∧
        (∀ each ∈ before, each.WeavableBy [settings]) ∧ method.FailsBy [settings] reason ∧
        cause = .weave reason := by
  have fails_first {before after : List Method} {method : Method} {reason : WeaveError}
      (methods_eq : file.methods = before ++ method :: after)
      (weavable : ∀ each ∈ before, each.WeavableBy [settings])
      (fails : method.FailsBy [settings] reason) :
      weave ⟨[settings], false⟩ file = .error (.weave reason) := by
    rw [weave, runPasses, runPass_error methods_eq weavable fails]
  constructor
  · intro failed
    have unweavable : ¬file.WeavableBy [settings] := fun weavable => by
      rw [weave_pass_eq_ok_iff.mpr ⟨weavable, rfl⟩] at failed
      simp at failed
    obtain ⟨before, method, after, reason, methods_eq, weavable, fails⟩ :=
      Method.exists_first_failure unweavable
    rw [fails_first methods_eq weavable fails] at failed
    exact ⟨before, method, after, reason, methods_eq, weavable, fails,
      (Except.error.inj failed).symm⟩
  · rintro ⟨before, method, after, reason, methods_eq, weavable, fails, rfl⟩
    exact fails_first methods_eq weavable fails

/-- A pipeline does with a class what settings do with each of its methods in place. -/
structure WeavesInPlace (pipeline : Pipeline) (settings : Settings) (file : ClassFile) : Prop where
  /-- It succeeds if each method can be woven in place. -/
  succeeds_iff : (∃ answer, pipeline.weave file = .ok answer) ↔
    ∀ method ∈ file.methods, ∃ outcome, (method.weave settings).outcome = .ok outcome
  /-- It succeeds if the limits of all selected methods leave room and their labels are in order. -/
  succeeds_iff_room : (∃ answer, pipeline.weave file = .ok answer) ↔
    ∀ method ∈ file.methods, settings.selects method.declaration = true →
      method.maxLocals.toNat ≤ 65531 ∧ method.maxStack.toNat ≤ 65531 ∧
        Flow.WellLabelled method.instructions
  /-- The result holds each method as it is woven in place. -/
  woven_eq : ∀ woven report, pipeline.weave file = .ok (woven, report) →
    woven = ⟨file.name, file.methods.map fun method => (method.weave settings).method⟩
  /-- Exactly the selected methods change. -/
  changes_iff : (∃ answer, pipeline.weave file = .ok answer) → ∀ method ∈ file.methods,
    ((method.weave settings).method ≠ method ↔ settings.selects method.declaration = true)
  /-- The report counts all methods, the selected ones, and the returns in these. -/
  report_eq : ∀ woven report, pipeline.weave file = .ok (woven, report) →
    report =
      { inspected := file.methods.length
        selected := file.methods.countP fun method => settings.selects method.declaration
        exitSites := ((file.methods.filter fun method =>
          settings.selects method.declaration).map Method.returnCount).sum }
  /-- It fails for the first method that fails in place. -/
  fails_iff : ∀ cause, pipeline.weave file = .error cause ↔
    ∃ (before : List Method) (method : Method) (after : List Method) (reason : WeaveError),
      file.methods = before ++ method :: after ∧
      (∀ each ∈ before, ∃ outcome, (each.weave settings).outcome = .ok outcome) ∧
      (method.weave settings).outcome = .error reason ∧ cause = .weave reason

/-- A single pass weaves each method of a class as it is woven in place. -/
theorem weave_single (enabled : settings.enabled = true) (valid : settings.validate = .ok ())
    (file : ClassFile) :
    ∃ pipeline, ofSettings [settings] false = .ok pipeline ∧
      pipeline.WeavesInPlace settings file := by
  have passes_eq : [settings].filter Settings.enabled = [settings] := by simp [enabled]
  have selected_eq (declaration : Declaration) :
      declaration.isSelectedBy [settings] = settings.selects declaration := by simp
  have succeeds_iff : (∃ answer, weave ⟨[settings], false⟩ file = .ok answer) ↔
      file.WeavableBy [settings] := by
    simp only [weave_pass_eq_ok_iff, exists_and_left, exists_eq, and_true]
  refine ⟨⟨[settings], false⟩, ?_, ⟨?_, ?_, ?_, ?_, ?_, ?_⟩⟩
  · rw [ofSettings_of_valid (List.forall_mem_singleton.mpr valid) false, passes_eq]
  · simp only [succeeds_iff, Method.exists_weave_iff]
    rfl
  · simp only [succeeds_iff, ClassFile.WeavableBy, Method.WeavableBy,
      Method.exists_instrument_iff, selected_eq]
  · intro woven report ran
    obtain ⟨weavable, answer_eq⟩ := weave_pass_eq_ok_iff.mp ran
    obtain ⟨rfl, -⟩ := Prod.mk.inj answer_eq
    rw [ClassFile.wovenBy, List.map_congr_left fun method member =>
      Method.weave_method_eq (weavable method member)]
  · intro succeeded method member
    have weavable := succeeds_iff.mp succeeded method member
    rw [Method.weave_method_eq weavable, Method.wovenBy_ne_iff weavable, selected_eq]
  · intro woven report ran
    obtain ⟨-, answer_eq⟩ := weave_pass_eq_ok_iff.mp ran
    obtain ⟨-, rfl⟩ := Prod.mk.inj answer_eq
    simp only [Report.ofMethods, selected_eq, List.length_singleton, Nat.one_mul]
  · intro cause
    simp only [weave_pass_eq_error_iff, Method.exists_weave_iff,
      Method.weave_outcome_eq_error_iff]

/-- Settings that select the methods marked as timed. -/
def timedOnly : Settings := ⟨true, ["Timed"]⟩

theorem weave_single_markedFile :
    timedOnly.enabled = true ∧ timedOnly.validate = .ok () ∧
    ∃ pipeline, ofSettings [timedOnly] false = .ok pipeline ∧
      pipeline.WeavesInPlace timedOnly markedFile :=
  have enabled : timedOnly.enabled = true := rfl
  have valid : timedOnly.validate = .ok () := by decide
  ⟨enabled, valid, weave_single enabled valid markedFile⟩

end Pipeline
end MethodTracing
