import MethodTracing.Machine.Run

/-!
# Invariants of runs

What every step keeps holds in every state of a run and decides its outcome.
-/

namespace MethodTracing
namespace Machine

/-- A run that goes on is in a good state; one that has ended did so well. -/
def Progress.Meets (good : State → Prop)
    (well : World → Except CallError (Option Value) → Prop) : Progress → Prop
  | .running state => good state
  | .ended world outcome => well world outcome

/-- The states that a run of at most `fuel` instructions goes through. -/
def states (setup : Setup) : Nat → Progress → List State
  | _, .ended _ _ => []
  | 0, .running state => [state]
  | fuel + 1, .running state => state :: states setup fuel (step setup state)

section Invariants

variable {setup : Setup} {good : State → Prop}
  {well : World → Except CallError (Option Value) → Prop}

/-- A run ends well if every step from a good state does well, and so does running out there. -/
theorem run_meets (kept : ∀ state, good state → (step setup state).Meets good well)
    (out : ∀ state, good state → well state.world (.error (exhausted state))) (fuel : Nat)
    {progress : Progress} (meets : progress.Meets good well) :
    well (run setup fuel progress).1 (run setup fuel progress).2 := by
  induction fuel generalizing progress with
  | zero =>
      cases progress with
      | ended world outcome => exact meets
      | running state => exact out state meets
  | succ fuel ih =>
      cases progress with
      | ended world outcome => exact meets
      | running state => exact ih (kept state meets)

/-- All states of a run are good if every step from a good state does well. -/
theorem states_meet (kept : ∀ state, good state → (step setup state).Meets good well) (fuel : Nat)
    {progress : Progress} (meets : progress.Meets good well) :
    ∀ state ∈ states setup fuel progress, good state := by
  induction fuel generalizing progress with
  | zero =>
      cases progress with
      | ended world outcome => simp [states]
      | running state =>
          simp only [states, List.forall_mem_singleton]
          exact meets
  | succ fuel ih =>
      cases progress with
      | ended world outcome => simp [states]
      | running state =>
          simp only [states, List.forall_mem_cons]
          exact ⟨meets, ih (kept state meets)⟩

end Invariants

/-- A run that has ended takes no budget. -/
theorem run_ended (setup : Setup) (fuel : Nat) (world : World)
    (outcome : Except CallError (Option Value)) :
    run setup fuel (.ended world outcome) = (world, outcome) := by
  cases fuel <;> rfl

/-- A run that can go no further fails, whatever is left of the budget. -/
theorem run_fellOffEnd (setup : Setup) (fuel : Nat) {state : State}
    (beyond : state.current.instruction? = none) :
    run setup fuel (.running state) = (state.world,
      .error (failureAt state.current.body.method state.current.index .fellOffEnd)) := by
  cases fuel with
  | zero => simp [run, exhausted, beyond]
  | succ fuel =>
      obtain ⟨world, ⟨body, frame, index⟩, callers⟩ := state
      simp only [Activation.instruction?] at beyond
      simp [run, step, beyond]

/-! ## Runs without tables

The table of labels of a body does not reduce to a value in a proof; the instructions do. -/

/-- Execute one instruction, with labels looked up in the instructions. -/
def plainStep (setup : Setup) (state : State) : Progress :=
  let ⟨world, ⟨body, frame, index⟩, callers⟩ := state
  match (body.instruction? index).map (perform setup.file world frame) with
  | some (world, .ok (.jump frame target)) =>
      match lastMarking? target 0 body.method.instructions with
      | none => .ended world (.error (failureAt body.method index (.undefinedLabel target)))
      | some index => .running ⟨world, ⟨body, frame, index⟩, callers⟩
  | _ => step setup state

/-- Run to the end by such steps. -/
def plainRun (setup : Setup) : Nat → Progress → World × Except CallError (Option Value)
  | _, .ended world outcome => (world, outcome)
  | 0, .running state => (state.world, .error (exhausted state))
  | fuel + 1, .running state => plainRun setup fuel (plainStep setup state)

theorem plainStep_eq (setup : Setup) (state : State) :
    plainStep setup state = step setup state := by
  obtain ⟨world, ⟨body, frame, index⟩, callers⟩ := state
  simp only [plainStep]
  split
  · rename_i target performed
    obtain ⟨instruction, found, performed⟩ := Option.map_eq_some_iff.mp performed
    cases marked : lastMarking? target 0 body.method.instructions <;>
      simp only [step, found, performed, body.place?_eq, marked]
  · rfl

theorem plainRun_eq (setup : Setup) (fuel : Nat) (progress : Progress) :
    plainRun setup fuel progress = run setup fuel progress := by
  induction fuel generalizing progress with
  | zero => cases progress <;> rfl
  | succ fuel ih =>
      cases progress with
      | ended world outcome => rfl
      | running state => rw [plainRun, run, plainStep_eq, ih]

/-! ## Calls -/

namespace Session

variable {session : Session} {name : String} {arguments : List Value} {progress : Progress}

/-- A call begins with an activation of the method of its name, which may get a receiver first. -/
theorem begin_cases (begun : session.begin name arguments = some progress) :
    ∃ method, session.setup.file.method? name = some method ∧
      ((method.declaration.access.isStatic = true ∧
        progress = activate session.setup session.world [] method arguments) ∨
      (method.declaration.access.isStatic = false ∧
        progress = activate session.setup
          (session.world.allocate (.plain session.setup.file.name)).1 [] method
          (.reference (session.world.allocate (.plain session.setup.file.name)).2 ::
            arguments))) := by
  rw [begin] at begun
  cases found : session.setup.file.method? name with
  | none => simp [found] at begun
  | some method =>
      refine ⟨method, rfl, ?_⟩
      simp only [found] at begun
      cases static : method.declaration.access.isStatic with
      | true =>
          rw [if_pos static] at begun
          exact Or.inl ⟨rfl, (Option.some.inj begun).symm⟩
      | false =>
          rw [if_neg (by simp [static])] at begun
          exact Or.inr ⟨rfl, (Option.some.inj begun).symm⟩

/-- A call of a method that the class does not have changes nothing. -/
theorem invoke_of_unknown (unknown : session.begin name arguments = none) :
    session.invoke name arguments = (session, .error (.unknownMethod name)) := by
  rw [invoke, unknown]

/-- A call that begins is a run, whose lines are handed over at the end. -/
theorem invoke_of_begin (begun : session.begin name arguments = some progress) :
    session.invoke name arguments =
      ({ session with world := (run session.setup session.fuel progress).1.ask .flush },
        settle (run session.setup session.fuel progress).1
          (run session.setup session.fuel progress).2) := by
  rw [invoke, begun]

/-- What a call comes to without tables: its outcome and all lines printed so far. -/
def plainCall (session : Session) (name : String) (arguments : List Value) :
    Except CallError (Option Value) × List String :=
  match session.begin name arguments with
  | none => (.error (.unknownMethod name), session.world.printed.toList)
  | some progress =>
      let (world, outcome) := plainRun session.setup session.fuel progress
      (settle world outcome, world.printed.toList)

theorem plainCall_eq (session : Session) (name : String) (arguments : List Value) :
    session.plainCall name arguments =
      ((session.invoke name arguments).2,
        (session.invoke name arguments).1.world.printed.toList) := by
  rw [plainCall, invoke]
  cases session.begin name arguments with
  | none => rfl
  | some progress =>
      simp only [plainRun_eq]
      rfl

end Session
end Machine
end MethodTracing
