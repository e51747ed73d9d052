import MethodTracing.Proofs.Weaving.Layout

/-!
# Failed attempts

An attempt at a method fails if its frame cannot be planned or its body has no control flow graph.
The body is examined behind the entry sequence, which stays where it is if the attempt fails then.

Main statements: what a failed attempt leaves of a method, and what a second one makes of it once
the body has gone on; which cause is given for a body without a control flow graph.
-/

namespace MethodTracing

/-- Straight code in front of a body stands behind the entry sequence of the woven body. -/
theorem Weaving.traced_append {front : List Instruction} (straight : Flow.Straight front)
    (name : String) (startSlot endSlot : UInt16) (code : List Instruction) :
    traced name startSlot endSlot (front ++ code) =
      (traced name startSlot endSlot code).take 5 ++ front ++
        (traced name startSlot endSlot code).drop 5 := by
  have behind_entry : (traced name startSlot endSlot code).drop 5 =
      guarded (Trace.exitCode name startSlot endSlot) code :=
    List.drop_left' (Trace.length_entryCode name startSlot)
  rw [take_entry, behind_entry, traced, guarded_append,
    guarded_of_no_return straight.isReturn_eq_false, List.append_assoc]

theorem FlowError.behind_behind (cause : FlowError) (first second : Nat) :
    (cause.behind first).behind second = cause.behind (first + second) := by
  cases cause <;> simp [behind, Nat.add_assoc]

/-- A cause as it is named once so many instructions stand in front of the body. -/
def WeaveError.behind (count : Nat) : WeaveError → WeaveError
  | .frame method cause => .frame method cause
  | .flow method cause => .flow method (cause.behind count)

namespace Method

/-- A method with code in front of its body. -/
def prepend (front : List Instruction) (method : Method) : Method :=
  { method with instructions := front ++ method.instructions }

/-- A method whose body goes on, and whose limits are set anew. -/
def continued (run : List Instruction) (maxStack maxLocals : UInt16) (method : Method) : Method :=
  { method with instructions := method.instructions ++ run, maxStack, maxLocals }

/-- A woven method with code behind its entry sequence. -/
def insertBehindEntry (run : List Instruction) (method : Method) : Method :=
  { method with
    instructions := method.instructions.take 5 ++ run ++ method.instructions.drop 5 }

/-- The code that a failed attempt leaves in front of a body. -/
def residue (method : Method) : WeaveError → List Instruction
  | .frame _ _ => []
  | .flow _ _ => (Trace.entrySequence method.declaration.name method.maxLocals).instructions

variable {method after : Method} {settings : Settings} {cause : WeaveError}

theorem straight_residue (method : Method) (cause : WeaveError) :
    Flow.Straight (method.residue cause) := by
  cases cause with
  | frame _ _ => simp [residue, Flow.Straight]
  | flow _ _ =>
      rw [residue, Trace.entrySequence, Sequence.instructions_ofList]
      exact Weaving.straight_entryCode _ _

theorem startSlot_of_ofLimits {plan : FramePlan}
    (planned : FramePlan.ofLimits method.maxStack method.maxLocals = .ok plan) :
    plan.startSlot = method.maxLocals :=
  UInt16.toNat_inj.mp (FramePlan.ofLimits_ok planned).1

/-! ## Causes -/

/-- When an attempt fails, for what cause, and what it leaves behind. -/
theorem instrument_eq_error_iff :
    method.instrument = ⟨after, .error cause⟩ ↔
      ((∃ reason, FramePlan.ofLimits method.maxStack method.maxLocals = .error reason ∧
          cause = .frame method.declaration.qualifiedName reason) ∨
        ∃ plan own, FramePlan.ofLimits method.maxStack method.maxLocals = .ok plan ∧
          FlowGraph.build method.instructions = .error own ∧
          cause = .flow method.declaration.qualifiedName (own.behind 5)) ∧
      after = method.prepend (method.residue cause) := by
  rw [instrument, framePlan]
  cases planned : FramePlan.ofLimits method.maxStack method.maxLocals with
  | error reason =>
      simp only [Except.mapError, Attempt.mk.injEq, Except.error.injEq, exists_eq_left',
        reduceCtorEq, false_and, exists_false, or_false]
      constructor
      · rintro ⟨rfl, rfl⟩
        exact ⟨rfl, rfl⟩
      · rintro ⟨rfl, rfl⟩
        exact ⟨rfl, rfl⟩
  | ok plan =>
      have start_eq := startSlot_of_ofLimits planned
      have built_iff {moved : FlowError} : FlowGraph.build
          (Trace.entryCode method.declaration.name plan.startSlot ++ method.instructions) =
            .error moved ↔
          ∃ own, FlowGraph.build method.instructions = .error own ∧ moved = own.behind 5 :=
        FlowGraph.build_append_eq_error_iff (Weaving.straight_entryCode _ _)
      simp only [Except.mapError, weaveExits, instructions_weaveEntry]
      cases built : FlowGraph.build
          (Trace.entryCode method.declaration.name plan.startSlot ++ method.instructions) with
      | error moved =>
          obtain ⟨own, own_built, rfl⟩ := built_iff.mp built
          simp only [own_built, start_eq, Attempt.mk.injEq, Except.error.injEq, Except.ok.injEq,
            reduceCtorEq, false_and, exists_false, false_or, exists_and_left, exists_eq_left']
          constructor
          · rintro ⟨rfl, rfl⟩
            exact ⟨rfl, rfl⟩
          · rintro ⟨rfl, rfl⟩
            exact ⟨rfl, rfl⟩
      | ok graph =>
          have own_built (own : FlowError) : FlowGraph.build method.instructions ≠ .error own :=
            fun own_built => by
              rw [built_iff.mpr ⟨own, own_built, rfl⟩] at built
              simp at built
          simp [own_built]

theorem weave_eq_error_iff :
    method.weave settings = ⟨after, .error cause⟩ ↔
      settings.selects method.declaration = true ∧ method.instrument = ⟨after, .error cause⟩ := by
  rw [weave]
  cases selected : settings.selects method.declaration with
  | false => simp
  | true =>
      rcases method.instrument with ⟨left, other | outcome⟩
      all_goals simp

/-! ## Further attempts -/

theorem returnCount_prepend {front : List Instruction} (straight : Flow.Straight front) :
    (method.prepend front).returnCount = method.returnCount := by
  have none_returns : front.countP Instruction.isReturn = 0 :=
    List.countP_eq_zero.mpr fun instruction member => by
      simp [straight.isReturn_eq_false instruction member]
  rw [returnCount, prepend, List.countP_append, none_returns, Nat.zero_add, returnCount]

/-- Instrumenting a method with straight code in front of its body comes to the same as without it;
the code ends up behind the entry sequence. -/
theorem instrument_prepend (method : Method) {front : List Instruction}
    (straight : Flow.Straight front) :
    (method.prepend front).instrument.outcome =
        method.instrument.outcome.mapError (·.behind front.length) ∧
      ∀ weave, method.instrument.outcome = .ok weave →
        (method.prepend front).instrument.method =
          method.instrument.method.insertBehindEntry front := by
  rcases attempted : method.instrument with ⟨left, cause | weave⟩
  · obtain ⟨causes, -⟩ := instrument_eq_error_iff.mp attempted
    have failed : (method.prepend front).instrument =
        ⟨(method.prepend front).prepend
          (residue (method.prepend front) (cause.behind front.length)),
          .error (cause.behind front.length)⟩ := by
      refine instrument_eq_error_iff.mpr ⟨?_, rfl⟩
      rcases causes with ⟨reason, planned, rfl⟩ | ⟨plan, own, planned, built, rfl⟩
      · exact Or.inl ⟨reason, planned, rfl⟩
      · have moved := (FlowGraph.build_append_eq_error_iff straight).mpr ⟨own, built, rfl⟩
        refine Or.inr ⟨plan, own.behind front.length, planned, moved, ?_⟩
        simp [WeaveError.behind, FlowError.behind_behind, Nat.add_comm, prepend]
    simp [failed, Except.mapError]
  · obtain ⟨planned, labelled, sites_eq, rfl⟩ := instrument_eq_traced_iff.mp attempted
    have woven : (method.prepend front).instrument =
        ⟨insertBehindEntry front { method with
          instructions := Weaving.traced method.declaration.name weave.plan.startSlot
            weave.plan.endSlot method.instructions
          maxStack := weave.plan.maxStack
          maxLocals := weave.plan.maxLocals }, .ok weave⟩ := by
      refine instrument_eq_traced_iff.mpr ⟨planned, straight.wellLabelled_append labelled,
        sites_eq.trans (returnCount_prepend straight).symm, ?_⟩
      simp only [insertBehindEntry, prepend, Weaving.traced_append straight]
    simp [woven, Except.mapError]

/-- Weaving a selected method succeeds or fails as instrumenting it does. -/
theorem outcome_weave (selected : settings.selects method.declaration = true) :
    (method.weave settings).outcome = method.instrument.outcome.map some := by
  rw [weave, if_pos selected]
  rcases method.instrument with ⟨left, cause | weave⟩
  all_goals rfl

/-- A selected method is marked once it has been instrumented. -/
theorem method_weave (selected : settings.selects method.declaration = true) {weave : Weave}
    (succeeded : method.instrument.outcome = .ok weave) :
    (method.weave settings).method = method.instrument.method.tagTraced := by
  have instrumented : method.instrument = ⟨method.instrument.method, .ok weave⟩ := by
    rw [← succeeded]
  rw [Method.weave, if_pos selected, instrumented]

/-- Weaving a selected method with straight code in front of its body comes to the same as without
it; the code ends up behind the entry sequence. -/
theorem weave_prepend {front : List Instruction} (straight : Flow.Straight front)
    (selected : settings.selects method.declaration = true) :
    ((method.prepend front).weave settings).outcome =
        (method.weave settings).outcome.mapError (·.behind front.length) ∧
      ∀ achieved, (method.weave settings).outcome = .ok achieved →
        ((method.prepend front).weave settings).method =
          (method.weave settings).method.insertBehindEntry front := by
  have selected_prepend : settings.selects (method.prepend front).declaration = true := selected
  obtain ⟨outcome_eq, method_eq⟩ := instrument_prepend method straight
  rw [outcome_weave selected, outcome_weave selected_prepend, outcome_eq]
  cases attempted : method.instrument.outcome with
  | error cause => exact ⟨rfl, fun achieved woven => by simp [Except.map] at woven⟩
  | ok weave =>
      refine ⟨rfl, fun achieved _ => ?_⟩
      have again : (method.prepend front).instrument.outcome = .ok weave := by
        rw [outcome_eq, attempted]
        rfl
      rw [method_weave selected attempted, method_weave selected_prepend again,
        method_eq weave attempted]
      rfl

/-! ## What a failed attempt comes to -/

/-- What a failed attempt at a method comes to. -/
structure FailedAttempt {α : Type} (attempt : Method → Attempt α) (method after : Method)
    (cause : WeaveError) : Prop where
  /-- Nothing has changed but that some code may stand in front of the body. -/
  left : after = method.prepend (method.residue cause)
  /-- The method is as it was if and only if its frame could not be planned. -/
  unchanged_iff : after = method ↔ ∃ reason, cause = .frame method.declaration.qualifiedName reason
  /-- Once the body has gone on, a second attempt has the outcome of a first one; an index that it
  names is counted with the code in front. -/
  outcome_eq : ∀ run maxStack maxLocals,
    (attempt (after.continued run maxStack maxLocals)).outcome =
      (attempt (method.continued run maxStack maxLocals)).outcome.mapError
        (·.behind (method.residue cause).length)
  /-- What it makes of the method is what a first attempt does, with the code that was in front
  behind the entry sequence. -/
  method_eq : ∀ run maxStack maxLocals achieved,
    (attempt (method.continued run maxStack maxLocals)).outcome = .ok achieved →
      (attempt (after.continued run maxStack maxLocals)).method =
        (attempt (method.continued run maxStack maxLocals)).method.insertBehindEntry
          (method.residue cause)

theorem continued_prepend (front run : List Instruction) (maxStack maxLocals : UInt16) :
    (method.prepend front).continued run maxStack maxLocals =
      (method.continued run maxStack maxLocals).prepend front := by
  simp [continued, prepend]

theorem prepend_eq_self_iff {front : List Instruction} :
    method.prepend front = method ↔ front = [] := by
  constructor
  · intro same
    simpa [prepend] using congrArg Method.instructions same
  · rintro rfl
    rfl

/-- An attempt that treats a body behind straight code as the body alone fails as described. -/
theorem FailedAttempt.of_prepend {α : Type} {attempt : Method → Attempt α}
    (failed : method.instrument = ⟨after, .error cause⟩)
    (prepended : ∀ run maxStack maxLocals {front : List Instruction}, Flow.Straight front →
      (attempt ((method.continued run maxStack maxLocals).prepend front)).outcome =
          (attempt (method.continued run maxStack maxLocals)).outcome.mapError
            (·.behind front.length) ∧
        ∀ achieved, (attempt (method.continued run maxStack maxLocals)).outcome = .ok achieved →
          (attempt ((method.continued run maxStack maxLocals).prepend front)).method =
            (attempt (method.continued run maxStack maxLocals)).method.insertBehindEntry front) :
    FailedAttempt attempt method after cause := by
  obtain ⟨causes, rfl⟩ := instrument_eq_error_iff.mp failed
  have straight := straight_residue method cause
  refine ⟨rfl, ?_, fun run maxStack maxLocals => ?_, fun run maxStack maxLocals => ?_⟩
  · rw [prepend_eq_self_iff]
    rcases causes with ⟨reason, -, rfl⟩ | ⟨plan, own, -, -, rfl⟩
    · simp [residue]
    · simp [residue, Trace.entrySequence, Trace.entryCode]
  · rw [continued_prepend]
    exact (prepended run maxStack maxLocals straight).1
  · rw [continued_prepend]
    exact (prepended run maxStack maxLocals straight).2

/-- A failed attempt, whether or not settings come into it, leaves a method as it was if its frame
could not be planned; if its body has no control flow graph, the entry sequence stays in front of
it, and a second attempt puts another one before that. -/
theorem failed_attempt_leaves (method after : Method) (cause : WeaveError) :
    (method.instrument = ⟨after, .error cause⟩ → FailedAttempt instrument method after cause) ∧
      ∀ settings, method.weave settings = ⟨after, .error cause⟩ →
        FailedAttempt (weave settings) method after cause := by
  constructor
  · intro failed
    exact .of_prepend failed fun _ _ _ _ straight => instrument_prepend _ straight
  · intro settings failed
    obtain ⟨selected, instrument_failed⟩ := weave_eq_error_iff.mp failed
    exact .of_prepend instrument_failed fun _ _ _ _ straight => weave_prepend straight selected

/-- A method whose body breaks off before the label that it jumps to. -/
def unfinished : Method :=
  { declaration :=
      { owner := "Api", name := "spin", type := some ⟨[], none⟩, access := ⟨0x0008⟩
        kind := .function, annotations := ⟨["Timed"]⟩ }
    instructions := [.goto ⟨7⟩]
    maxStack := 0
    maxLocals := 1 }

/-- The settings that select the methods marked as timed. -/
def timedSettings : Settings := ⟨true, ["Timed"]⟩

/-- The cause for which the method that breaks off cannot be woven. -/
def unfinishedCause : WeaveError := .flow "Api.spin" (.undefinedLabel 5 ⟨7⟩)

theorem failed_attempt_leaves_unfinished :
    (unfinished.weave timedSettings =
        ⟨(unfinished.weave timedSettings).method, .error unfinishedCause⟩) ∧
      FailedAttempt (weave timedSettings) unfinished (unfinished.weave timedSettings).method
        unfinishedCause :=
  have outcome : (unfinished.weave timedSettings).outcome = .error unfinishedCause := by
    decide +kernel
  have failed : unfinished.weave timedSettings =
      ⟨(unfinished.weave timedSettings).method, .error unfinishedCause⟩ := by rw [← outcome]
  ⟨failed, (failed_attempt_leaves unfinished _ unfinishedCause).2 timedSettings failed⟩

/-- The attempt at the method that breaks off changes it; once the body is complete, another attempt
succeeds as a first one would, but makes a different method of it. -/
theorem not_unchanged_unfinished :
    (unfinished.weave timedSettings).outcome = .error unfinishedCause ∧
      (unfinished.weave timedSettings).method ≠ unfinished ∧
      ((unfinished.continued [.label ⟨7⟩, .ret none] 0 1).weave timedSettings).outcome =
        .ok (some ⟨⟨1, 3, 4, 5, 4⟩, 1⟩) ∧
      (((unfinished.weave timedSettings).method.continued [.label ⟨7⟩, .ret none] 0 1).weave
        timedSettings).outcome = .ok (some ⟨⟨1, 3, 4, 5, 4⟩, 1⟩) ∧
      (((unfinished.weave timedSettings).method.continued [.label ⟨7⟩, .ret none] 0 1).weave
        timedSettings).method ≠
        ((unfinished.continued [.label ⟨7⟩, .ret none] 0 1).weave timedSettings).method := by
  decide +kernel

/-! ## The cause for a body without a control flow graph -/

/-- Where a frame can be planned, a selected method fails for its control flow exactly if its body
has no control flow graph.  The cause is that of the body, counted with the entry sequence, five
instructions long, in front. -/
theorem weave_flow_error_iff {plan : FramePlan}
    (planned : FramePlan.ofLimits method.maxStack method.maxLocals = .ok plan)
    (selected : settings.selects method.declaration = true) {name : String} {reason : FlowError} :
    (method.weave settings).outcome = .error (.flow name reason) ↔
      name = method.declaration.qualifiedName ∧
        ∃ own, FlowGraph.build method.instructions = .error own ∧ reason = own.behind 5 := by
  have outcome_iff : (method.weave settings).outcome = .error (.flow name reason) ↔
      ∃ after, method.weave settings = ⟨after, .error (.flow name reason)⟩ :=
    ⟨fun outcome => ⟨_, by rw [← outcome]⟩, fun ⟨after, failed⟩ => by rw [failed]⟩
  simp only [outcome_iff, weave_eq_error_iff, instrument_eq_error_iff, selected, true_and,
    planned]
  constructor
  · rintro ⟨after, ⟨reason, planned, failed⟩ | ⟨plan, own, planned, built, failed⟩, rfl⟩
    · simp at failed
    · obtain ⟨rfl, rfl⟩ := WeaveError.flow.inj failed
      exact ⟨rfl, own, built, rfl⟩
  · rintro ⟨rfl, own, built, rfl⟩
    exact ⟨_, Or.inr ⟨plan, own, rfl, built, rfl⟩, rfl⟩

theorem weave_flow_error_iff_unfinished :
    FramePlan.ofLimits unfinished.maxStack unfinished.maxLocals = .ok ⟨1, 3, 4, 5, 4⟩ ∧
      timedSettings.selects unfinished.declaration = true ∧
      ((unfinished.weave timedSettings).outcome = .error unfinishedCause ↔
        "Api.spin" = unfinished.declaration.qualifiedName ∧
          ∃ own, FlowGraph.build unfinished.instructions = .error own ∧
            .undefinedLabel 5 ⟨7⟩ = own.behind 5) :=
  have planned : FramePlan.ofLimits unfinished.maxStack unfinished.maxLocals =
      .ok ⟨1, 3, 4, 5, 4⟩ := by decide +kernel
  have selected : timedSettings.selects unfinished.declaration = true := by decide +kernel
  ⟨planned, selected, weave_flow_error_iff planned selected⟩

/-- The cause given for the method that breaks off is not the defect of its body. -/
theorem unfinished_cause_misplaced :
    FramePlan.ofLimits unfinished.maxStack unfinished.maxLocals = .ok ⟨1, 3, 4, 5, 4⟩ ∧
      timedSettings.selects unfinished.declaration = true ∧
      FlowGraph.build unfinished.instructions = .error (.undefinedLabel 0 ⟨7⟩) ∧
      (unfinished.weave timedSettings).outcome ≠
        .error (.flow unfinished.declaration.qualifiedName (.undefinedLabel 0 ⟨7⟩)) := by
  decide +kernel

end Method
end MethodTracing
