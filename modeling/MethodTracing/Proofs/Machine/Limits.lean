import MethodTracing.Proofs.Machine.Sessions

/-!
# Limits of runs

The budget and the nesting limit of a session do nothing but cut runs off.  Main statement: a call
that is not cut off ends in the same way under higher limits, unless its run was cut off and handing
over the lines failed instead; and whatever a call prints, it prints first under higher limits too.
-/

namespace MethodTracing
namespace Machine

/-- A call failed because it came to a limit of its session. -/
def IsCutOff (outcome : Except CallError (Option Value)) : Prop :=
  outcome = .error .outOfFuel ∨ ∃ limit, outcome = .error (.callDepthExceeded limit)

/-! ## Steps -/

section Steps

variable {file : ClassFile} {callDepth callDepth' : Nat}

/-- A method that may be begun may be begun under a higher nesting limit. -/
theorem activate_deeper (deeper : callDepth ≤ callDepth') (world : World)
    (callers : List Activation) (method : Method) (arguments : List Value) :
    activate ⟨file, callDepth⟩ world callers method arguments =
        .ended world (.error (.callDepthExceeded callDepth)) ∨
      activate ⟨file, callDepth'⟩ world callers method arguments =
        activate ⟨file, callDepth⟩ world callers method arguments := by
  unfold activate
  by_cases miscounted : arguments.length ≠ argumentCount method
  · simp only [if_pos miscounted, or_true]
  · simp only [if_neg miscounted]
    by_cases deep : callDepth ≤ callers.length
    · exact Or.inl (if_pos deep)
    · have shallow : ¬callDepth' ≤ callers.length := fun deep' => deep (Nat.le_trans deeper deep')
      rw [if_neg deep, if_neg shallow]
      exact Or.inr rfl

/-- A step that does not come to the nesting limit is the same under a higher one. -/
theorem step_deeper (deeper : callDepth ≤ callDepth') (state : State) :
    (∃ world, step ⟨file, callDepth⟩ state =
      .ended world (.error (.callDepthExceeded callDepth))) ∨
    step ⟨file, callDepth'⟩ state = step ⟨file, callDepth⟩ state := by
  obtain ⟨world, ⟨body, frame, index⟩, callers⟩ := state
  simp only [step]
  cases body.instruction? index with
  | none => exact Or.inr rfl
  | some instruction =>
      simp only
      cases perform file world frame instruction with
      | mk after outcome =>
          -- Only calls look at the limit.
          rcases outcome with (_ | _) | (_ | _ | ⟨frame, callee, arguments⟩ | _)
          case ok.call =>
            exact (activate_deeper deeper after _ callee arguments).imp_left fun cut => ⟨_, cut⟩
          all_goals exact Or.inr rfl

/-- What a step does to the world does not depend on the nesting limit. -/
theorem world_step_deeper (state : State) :
    (step ⟨file, callDepth'⟩ state).world = (step ⟨file, callDepth⟩ state).world := by
  rw [world_step, world_step]

end Steps

/-! ## Runs -/

section Runs

variable {file : ClassFile} {callDepth callDepth' fuel fuel' : Nat}

/-- A run that is not cut off is the same run under higher limits. -/
theorem run_raised (deeper : callDepth ≤ callDepth') (longer : fuel ≤ fuel') {progress : Progress}
    (finished : ¬IsCutOff (run ⟨file, callDepth⟩ fuel progress).2) :
    run ⟨file, callDepth'⟩ fuel' progress = run ⟨file, callDepth⟩ fuel progress := by
  induction fuel generalizing fuel' progress with
  | zero =>
      cases progress with
      | ended world outcome => rw [run_ended, run_ended]
      | running state =>
          cases found : state.current.instruction? with
          | none => rw [run_fellOffEnd _ _ found, run_fellOffEnd _ _ found]
          | some instruction =>
              have out_of_fuel : (run ⟨file, callDepth⟩ 0 (.running state)).2 =
                  .error .outOfFuel := by
                simp [run, exhausted, found]
              exact absurd (Or.inl out_of_fuel) finished
  | succ fuel ih =>
      cases progress with
      | ended world outcome => rw [run_ended, run_ended]
      | running state =>
          obtain ⟨fuel', rfl⟩ : ∃ more, fuel' = more + 1 := ⟨fuel' - 1, by omega⟩
          simp only [run] at finished ⊢
          rcases step_deeper deeper state with ⟨world, cut⟩ | same
          · rw [cut, run_ended] at finished
            exact absurd (Or.inr ⟨callDepth, rfl⟩) finished
          · rw [same]
            exact ih (Nat.le_of_succ_le_succ longer) finished

/-- What a run prints, it prints first under higher limits, whether or not it is cut off. -/
theorem printed_run_raised (deeper : callDepth ≤ callDepth') (longer : fuel ≤ fuel')
    (progress : Progress) :
    (run ⟨file, callDepth⟩ fuel progress).1.printed.toList <+:
      (run ⟨file, callDepth'⟩ fuel' progress).1.printed.toList := by
  induction fuel generalizing fuel' progress with
  | zero =>
      have unmoved : (run ⟨file, callDepth⟩ 0 progress).1 = progress.world := by
        cases progress <;> rfl
      rw [unmoved]
      exact printed_run_grows _ _ _
  | succ fuel ih =>
      cases progress with
      | ended world outcome => simp only [run_ended, List.prefix_rfl]
      | running state =>
          obtain ⟨fuel', rfl⟩ : ∃ more, fuel' = more + 1 := ⟨fuel' - 1, by omega⟩
          simp only [run]
          rcases step_deeper deeper state with ⟨world, cut⟩ | same
          · -- The run is cut off here; under the higher limit it goes on from the same world.
            have world_eq : (step ⟨file, callDepth'⟩ state).world = world := by
              rw [world_step_deeper, cut]
              rfl
            rw [cut, run_ended, ← world_eq]
            exact printed_run_grows _ _ _
          · rw [same]
            exact ih (Nat.le_of_succ_le_succ longer) _

end Runs

/-! ## Calls -/

namespace Session

/-- How the run of a call ends, whether or not its lines can be handed over afterwards. -/
def ending (session : Session) (name : String) (arguments : List Value) :
    Except CallError (Option Value) :=
  match session.begin name arguments with
  | none => .error (.unknownMethod name)
  | some progress => (run session.setup session.fuel progress).2

/-- The run of a call was cut off, but the call fails because its lines cannot be handed over. -/
def HidesCutOff (session : Session) (name : String) (arguments : List Value) : Prop :=
  IsCutOff (session.ending name arguments) ∧
    ∃ reason, (session.invoke name arguments).2 = .error (.output reason)

/-- A call of a session with higher limits does what the call of the limited session does, as far as
that gets. -/
structure Outlasts (raised limited : Session) (name : String) (arguments : List Value) : Prop where
  /-- A call that is not cut off has the same outcome and leaves the same world, with the same lines
  printed, unless it hides that its run was cut off. -/
  outcome : ¬IsCutOff (limited.invoke name arguments).2 →
    limited.HidesCutOff name arguments ∨
      (raised.invoke name arguments).2 = (limited.invoke name arguments).2 ∧
        (raised.invoke name arguments).1.world = (limited.invoke name arguments).1.world
  /-- What a call prints before it ends or is cut off is printed first. -/
  printed : (limited.invoke name arguments).1.world.printed.toList <+:
    (raised.invoke name arguments).1.world.printed.toList

/-- A call ends as its run does, or fails because its lines cannot be handed over. -/
theorem settle_cases (world : World) (outcome : Except CallError (Option Value)) :
    settle world outcome = outcome ∨ ∃ reason, settle world outcome = .error (.output reason) := by
  unfold settle
  split
  · exact Or.inr ⟨_, rfl⟩
  · exact Or.inl rfl

section Calls

variable {file : ClassFile} {callDepth callDepth' fuel fuel' : Nat}

/-- A call begins alike under a higher nesting limit, unless the lower one allows no call at all. -/
theorem begin_deeper (deeper : callDepth ≤ callDepth') (world : World) (name : String)
    (arguments : List Value) :
    (begin ⟨⟨file, callDepth⟩, fuel, world⟩ name arguments = none ∧
      begin ⟨⟨file, callDepth'⟩, fuel', world⟩ name arguments = none) ∨
    ∃ progress progress', begin ⟨⟨file, callDepth⟩, fuel, world⟩ name arguments = some progress ∧
      begin ⟨⟨file, callDepth'⟩, fuel', world⟩ name arguments = some progress' ∧
      progress'.world = progress.world ∧
      ((∃ later, progress = .ended later (.error (.callDepthExceeded callDepth))) ∨
        progress' = progress) := by
  simp only [begin]
  cases file.method? name with
  | none => exact Or.inl ⟨rfl, rfl⟩
  | some method =>
      right
      by_cases static : method.declaration.access.isStatic
      · simp only [if_pos static]
        refine ⟨_, _, rfl, rfl, by simp only [world_activate], ?_⟩
        exact (activate_deeper deeper world [] method arguments).imp_left fun cut => ⟨_, cut⟩
      · simp only [if_neg static]
        refine ⟨_, _, rfl, rfl, by simp only [world_activate], ?_⟩
        exact (activate_deeper deeper _ [] method _).imp_left fun cut => ⟨_, cut⟩

/-- Higher limits do not change a call that is not cut off; of one that is cut off they keep what it
has printed. -/
theorem invoke_raised (deeper : callDepth ≤ callDepth') (longer : fuel ≤ fuel') (world : World)
    (name : String) (arguments : List Value) :
    Outlasts ⟨⟨file, callDepth'⟩, fuel', world⟩ ⟨⟨file, callDepth⟩, fuel, world⟩ name
      arguments := by
  rcases begin_deeper deeper world name arguments with
    ⟨unknown, unknown'⟩ | ⟨progress, progress', begun, begun', world_eq, reached⟩
  · refine ⟨fun _ => Or.inr ?_, ?_⟩
    · rw [invoke_of_unknown unknown, invoke_of_unknown unknown']
      exact ⟨rfl, rfl⟩
    · simp only [invoke_of_unknown unknown, invoke_of_unknown unknown', List.prefix_rfl]
  · have same_run : ¬IsCutOff (run ⟨file, callDepth⟩ fuel progress).2 →
        run ⟨file, callDepth'⟩ fuel' progress' = run ⟨file, callDepth⟩ fuel progress := by
      intro finished
      rcases reached with ⟨later, rfl⟩ | rfl
      · rw [run_ended] at finished
        exact absurd (Or.inr ⟨callDepth, rfl⟩) finished
      · exact run_raised deeper longer finished
    refine ⟨fun finished => ?_, ?_⟩
    · rw [HidesCutOff, ending, begun]
      rw [invoke_of_begin begun] at finished ⊢
      by_cases cut_off : IsCutOff (run ⟨file, callDepth⟩ fuel progress).2
      · -- The call does not tell that its run was cut off, so its lines were not handed over.
        left
        refine ⟨cut_off, (settle_cases _ _).resolve_left fun same => ?_⟩
        rw [same] at finished
        exact finished cut_off
      · right
        rw [invoke_of_begin begun', same_run cut_off]
        exact ⟨rfl, rfl⟩
    · rw [invoke_of_begin begun, invoke_of_begin begun']
      rcases reached with ⟨later, rfl⟩ | rfl
      · have grows := printed_run_grows ⟨file, callDepth'⟩ fuel' progress'
        rw [world_eq] at grows
        rw [run_ended]
        exact grows
      · exact printed_run_raised deeper longer progress'

end Calls

/-- A method that prints a line and calls itself, and one that adds to what another one returns. -/
def tickingFile : ClassFile :=
  { name := "Ticker"
    methods :=
      [{ declaration :=
          { owner := "Ticker", name := "tick", type := some ⟨[], none⟩, access := ⟨0x0008⟩
            kind := .function, annotations := .empty }
         instructions :=
          [.getStatic Trace.console, .ldc "tick", .invoke .virtual Trace.println,
            .invoke .direct ⟨"Ticker", "tick", ⟨[], none⟩⟩, .ret none]
         maxStack := 2
         maxLocals := 0 },
        { declaration :=
          { owner := "Ticker", name := "later", type := some ⟨[.int], some .int⟩
            access := ⟨0x0008⟩, kind := .function, annotations := .empty }
          instructions :=
          [.load .int 0, .invoke .direct ⟨"Ticker", "soon", ⟨[], some .int⟩⟩,
            .intArithmetic .add, .ret (some .int)]
          maxStack := 2
          maxLocals := 1 },
        { declaration :=
          { owner := "Ticker", name := "soon", type := some ⟨[], some .int⟩
            access := ⟨0x0008⟩, kind := .function, annotations := .empty }
          instructions := [.iconst 1, .ret (some .int)]
          maxStack := 1
          maxLocals := 0 }] }

theorem invoke_raised_tickingFile :
    (2 ≤ 8 ∧ 6 ≤ 100) ∧
    ((fresh tickingFile 2 6 (.steady 0 0) .reliable).invoke "later" [.int 4]).2 =
      .ok (some (.int 5)) ∧
    Outlasts (fresh tickingFile 8 100 (.steady 0 0) .reliable)
      (fresh tickingFile 2 6 (.steady 0 0) .reliable) "later" [.int 4] :=
  ⟨by decide, by decide +kernel, invoke_raised (by decide) (by decide) _ "later" [.int 4]⟩

/-- A sink that takes lines but cannot hand them over. -/
def stuckSink : Sink := .steady none (some "flush refused")

/-- A sink that takes lines but cannot hand over an odd number of them. -/
def oddSink : Sink where
  failure?
    | asked, .flush => if asked.length % 2 = 1 then some "flush refused" else none
    | _, .line _ => none
  asked := []

/-- Where lines cannot be handed over, a call that is cut off does not fail for that reason: with a
larger budget it prints more, and it may fail for another reason. -/
theorem cut_off_hidden_by_flush :
    (¬IsCutOff ((fresh tickingFile 8 3 (.steady 0 0) stuckSink).invoke "tick" []).2 ∧
      ((fresh tickingFile 8 3 (.steady 0 0) stuckSink).invoke "tick" []).1.world.printed =
        #["tick"] ∧
      ((fresh tickingFile 8 7 (.steady 0 0) stuckSink).invoke "tick" []).1.world.printed =
        #["tick", "tick"]) ∧
    ((fresh tickingFile 8 3 (.steady 0 0) oddSink).invoke "tick" []).2 =
      .error (.output "flush refused") ∧
    ((fresh tickingFile 8 7 (.steady 0 0) oddSink).invoke "tick" []).2 = .error .outOfFuel := by
  have outcome : ((fresh tickingFile 8 3 (.steady 0 0) stuckSink).invoke "tick" []).2 =
      .error (.output "flush refused") := by decide +kernel
  refine ⟨⟨?_, by decide +kernel, by decide +kernel⟩, by decide +kernel, by decide +kernel⟩
  rw [outcome]
  simp [IsCutOff]

end Session
end Machine
end MethodTracing
