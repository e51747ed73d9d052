import MethodTracing.Machine.Attended
import MethodTracing.Proofs.Machine.Sessions

/-!
# Attending to runs

An attended run comes to what the run comes to, whatever it is told on the way: the clock shows it
the times, and the sink takes or refuses its lines, as they would do to the run itself.  A step
needs at most one thing of the world outside, and what it needs does not depend on what lies there.
-/

namespace MethodTracing
namespace Machine

/-- Attend to a run with the clock and the sink that lie outside. -/
def Attended.follow : Attended → Outside → World × Except CallError (Option Value)
  | .ended world outcome, outside => (world.facing outside, outcome)
  | .reads resume, outside => (resume outside.clock.now).follow outside.tick
  | .asks request resume, outside =>
      (resume (outside.sink.refusal? request)).follow (outside.serve request)

/-- A run with another outside. -/
def Progress.facing (progress : Progress) (outside : Outside) : Progress :=
  match progress with
  | .running state => .running (state.facing outside)
  | .ended world outcome => .ended (world.facing outside) outcome

theorem Progress.facing_facing (progress : Progress) (outside later : Outside) :
    (progress.facing outside).facing later = progress.facing later := by
  cases progress <;> rfl

/-! ## The world inside -/

namespace World

/-- What lies outside a world. -/
def outside (world : World) : Outside :=
  ⟨world.clock, world.sink, world.printed⟩

theorem render_facing (world : World) (outside : Outside) :
    (world.facing outside).render = world.render := by
  funext value
  cases value <;> rfl

theorem constant_facing (world : World) (outside : Outside) (content : String) :
    (world.facing outside).constant content =
      ((world.constant content).1.facing outside, (world.constant content).2) := by
  simp only [constant, facing]
  cases world.constants.lookup content <;> rfl

theorem theConsole_facing (world : World) (outside : Outside) :
    (world.facing outside).theConsole =
      (world.theConsole.1.facing outside, world.theConsole.2) := by
  obtain ⟨heap, constants, console, clock, sink, printed⟩ := world
  cases console <;> rfl

/-- A refused line changes the sink only. -/
theorem ask_facing {world : World} {outside : Outside} {line reason : String}
    (refused : outside.sink.refusal? (.line line) = some reason) :
    (world.facing outside).ask (.line line) = world.facing (outside.serve (.line line)) := by
  simp only [ask, facing, Outside.serve, refused]

theorem print_facing {world : World} {outside : Outside} {line : String}
    (taken : outside.sink.refusal? (.line line) = none) :
    (world.facing outside).print line = world.facing (outside.serve (.line line)) := by
  simp only [print, ask, facing, Outside.serve, taken]

end World

/-! ## Single instructions -/

/-- An instruction leaves the world outside alone, reads the clock, or asks for a line to be taken;
the answer that it gets is all that it finds out. -/
inductive Looks {α : Type} (instruction : Instruction) (act : Outside → World × α) : Prop
  | nothing (inner : World) (answer : α) : (∀ outside, act outside = (inner.facing outside, answer)) →
      Looks instruction act
  | time (inner : World) (answer : Int64 → α) : instruction.readsClock →
      (∀ outside, act outside = (inner.facing outside.tick, answer outside.clock.now)) →
      Looks instruction act
  | line (text : String) (inner : World) (answer : Option String → α) : instruction.isPrintln →
      (∀ outside, act outside = (inner.facing (outside.serve (.line text)),
        answer (outside.sink.refusal? (.line text)))) →
      Looks instruction act

theorem Looks.map {α β : Type} {instruction : Instruction} {act : Outside → World × α}
    (looks : Looks instruction act) (change : α → β) :
    Looks instruction fun outside => ((act outside).1, change (act outside).2) := by
  cases looks with
  | nothing inner answer acts =>
      exact .nothing inner (change answer) fun outside => by rw [acts]
  | time inner answer reads acts =>
      exact .time inner (fun time => change (answer time)) reads fun outside => by rw [acts]
  | line text inner answer prints acts =>
      exact .line text inner (fun refusal => change (answer refusal)) prints fun outside => by
        rw [acts]

section Instructions

variable (file : ClassFile) (world : World) (frame : Frame)

theorem looks_callOn (receiver : ObjectId) (arguments : List Value) (method : MethodRef) :
    Looks (.invoke .virtual method) fun outside =>
      callOn (world.facing outside) receiver arguments method := by
  have object_eq (outside : Outside) :
      (world.facing outside).object? receiver = world.object? receiver := rfl
  have builder_eq (outside : Outside) :
      (world.facing outside).isBuilder receiver = world.isBuilder receiver := rfl
  simp only [callOn, World.render_facing, object_eq, builder_eq]
  split
  · rename_i println
    split
    · exact .nothing world _ fun _ => rfl
    · split
      · exact .nothing world _ fun _ => rfl
      · split
        · exact .nothing world _ fun _ => rfl
        · rename_i line _
          refine .line line world
            (fun refusal => refusal.elim (.ok none) fun reason => .error (.output reason))
            (by simpa [Instruction.isPrintln] using println) fun outside => ?_
          cases refused : outside.sink.refusal? (.line line) with
          | none =>
              rw [← World.print_facing refused]
              simp only [World.facing, refused]
              rfl
          | some reason =>
              rw [← World.ask_facing refused]
              simp only [World.facing, refused]
              rfl
  · split
    · split
      · split
        · exact .nothing world _ fun _ => rfl
        · rename_i more _
          split
          · exact .nothing (world.extend receiver more) _ fun _ => rfl
          · exact .nothing world _ fun _ => rfl
      · exact .nothing world _ fun _ => rfl
    · split
      · split
        · rename_i content _
          exact .nothing (world.allocate (.text content)).1
            (.ok (some (.reference (world.allocate (.text content)).2))) fun _ => rfl
        · exact .nothing world _ fun _ => rfl
      · exact .nothing world _ fun _ => rfl

theorem looks_invoke (arguments : List Value) (method : MethodRef) (call : CallKind) :
    Looks (.invoke call method) fun outside =>
      invoke file (world.facing outside) frame arguments method call := by
  cases call with
  | special =>
      simp only [invoke]
      split
      · exact .nothing world _ fun _ => rfl
      · split <;> exact .nothing world _ fun _ => rfl
  | virtual =>
      simp only [invoke]
      split
      · exact .nothing world _ fun _ => rfl
      · rename_i receiver rest _
        have looks := (looks_callOn world receiver arguments method).map
          fun outcome => outcome.bind (pushResult rest)
        convert looks using 2 with outside
        rcases callOn (world.facing outside) receiver arguments method with ⟨after, _ | _⟩ <;> rfl
  | direct =>
      simp only [invoke]
      split
      · rename_i clock
        exact .time world (fun time => pushResult frame (some (.long time)))
          (by simpa [Instruction.readsClock] using clock) fun _ => rfl
      · split
        · split <;> exact .nothing world _ fun _ => rfl
        · exact .nothing world _ fun _ => rfl

/-- What an instruction does to the world inside and to its frame is settled by what it is told. -/
theorem looks_perform (instruction : Instruction) :
    Looks instruction fun outside => perform file (world.facing outside) frame instruction := by
  cases instruction with
  | ldc content =>
      exact .nothing (world.constant content).1
        (proceed (frame.push (.reference (world.constant content).2))) fun outside => by
          simp only [perform, World.constant_facing]
  | getStatic field =>
      simp only [perform]
      split
      · exact .nothing world.theConsole.1
          (proceed (frame.push (.reference world.theConsole.2))) fun outside => by
            simp only [World.theConsole_facing]
      · exact .nothing world _ fun _ => rfl
  | new className =>
      exact .nothing (world.allocate _).1
        (proceed (frame.push (.reference (world.allocate (.plain className)).2))) fun _ => rfl
  | invoke call method =>
      simp only [perform]
      split
      · exact .nothing world _ fun _ => rfl
      · exact looks_invoke file world _ _ method call
  | ret kind =>
      cases kind with
      | none => exact .nothing world _ fun _ => rfl
      | some kind =>
          simp only [perform]
          split <;> exact .nothing world _ fun _ => rfl
  | athrow =>
      simp only [perform]
      split <;> exact .nothing world _ fun _ => rfl
  | _ => exact .nothing world _ fun _ => rfl

end Instructions

/-! ## Single steps -/

/-- Where an instruction leads that was carried out. -/
def land (setup : Setup) (body : Body) (index : Nat) (callers : List Activation) :
    World × Except Trap Transfer → Progress
  | (world, .error (.fault fault)) => .ended world (.error (failureAt body.method index fault))
  | (world, .error (.output reason)) => .ended world (.error (.output reason))
  | (world, .ok (.next frame)) => .running ⟨world, ⟨body, frame, index + 1⟩, callers⟩
  | (world, .ok (.jump frame target)) =>
      match body.place? target with
      | none => .ended world (.error (failureAt body.method index (.undefinedLabel target)))
      | some index => .running ⟨world, ⟨body, frame, index⟩, callers⟩
  | (world, .ok (.call frame callee arguments)) =>
      activate setup world (⟨body, frame, index⟩ :: callers) callee arguments
  | (world, .ok (.leave value)) => resume world value callers

section Steps

variable {setup : Setup}

theorem activate_facing (world : World) (outside : Outside) (callers : List Activation)
    (method : Method) (arguments : List Value) :
    activate setup (world.facing outside) callers method arguments =
      (activate setup world callers method arguments).facing outside := by
  unfold activate
  repeat' split
  all_goals rfl

theorem resume_facing (world : World) (outside : Outside) (value : Option Value)
    (callers : List Activation) :
    resume (world.facing outside) value callers = (resume world value callers).facing outside := by
  unfold resume
  repeat' split
  all_goals rfl

theorem land_facing (body : Body) (index : Nat) (callers : List Activation) (world : World)
    (outside : Outside) (outcome : Except Trap Transfer) :
    land setup body index callers (world.facing outside, outcome) =
      (land setup body index callers (world, outcome)).facing outside := by
  rcases outcome with (_ | _) | (_ | ⟨frame, target⟩ | _ | _)
  · rfl
  · rfl
  · rfl
  · simp only [land]
    cases body.place? target <;> rfl
  · exact activate_facing ..
  · exact resume_facing ..

theorem step_eq_land {world : World} {body : Body} {frame : Frame} {index : Nat}
    {callers : List Activation} {instruction : Instruction}
    (found : body.instruction? index = some instruction) :
    step setup ⟨world, ⟨body, frame, index⟩, callers⟩ =
      land setup body index callers (perform setup.file world frame instruction) := by
  simp only [step, found]
  rfl

/-- The errand of an instruction is read off the world that it leaves. -/
theorem errand?_eq {state : State} {instruction : Instruction}
    (found : state.current.instruction? = some instruction) {inner : World} {outside : Outside}
    (tried : (perform setup.file (state.world.facing (.still 0 none)) state.current.frame
      instruction).1 = inner.facing outside) :
    state.errand? setup =
      if instruction.isPrintln || instruction.readsClock then
        match outside.sink.asked with
        | request :: _ => some (.request request)
        | [] => if outside.clock.taken = 0 then none else some .time
      else none := by
  have world_eq : (step setup (state.facing (.still 0 none))).world = inner.facing outside := by
    rw [world_step]
    simp only [State.facing, found, tried]
  rw [State.errand?, found, world_eq]
  rfl

/-- What a step needs is what it gets on its errand. -/
theorem step_facing (setup : Setup) (state : State) :
    (state.errand? setup = none ∧
      ∀ outside, step setup (state.facing outside) = (step setup state).facing outside) ∨
    (state.errand? setup = some .time ∧ ∀ outside, step setup (state.facing outside) =
      (step setup (state.facing (.still outside.clock.now none))).facing outside.tick) ∨
    ∃ line, state.errand? setup = some (.request (.line line)) ∧
      ∀ outside, step setup (state.facing outside) =
        (step setup (state.facing (.still 0 (outside.sink.refusal? (.line line))))).facing
          (outside.serve (.line line)) := by
  rcases found : state.current.instruction? with _ | instruction
  · refine Or.inl ⟨by simp [State.errand?, found], fun outside => ?_⟩
    obtain ⟨world, ⟨body, frame, index⟩, callers⟩ := state
    simp only [Activation.instruction?] at found
    simp only [State.facing, step, found]
    rfl
  · have stepped (outside : Outside) : step setup (state.facing outside) =
        land setup state.current.body state.current.index state.callers
          (perform setup.file (state.world.facing outside) state.current.frame instruction) :=
      step_eq_land found
    cases looks_perform setup.file state.world state.current.frame instruction with
    | nothing inner answer acts =>
        refine Or.inl ⟨?_, fun outside => ?_⟩
        · rw [errand?_eq found (congrArg Prod.fst (acts _))]
          exact ite_self _
        · have here : step setup state = step setup (state.facing state.world.outside) := rfl
          rw [here, stepped, stepped, acts, acts, land_facing, land_facing, Progress.facing_facing]
    | time inner answer reads acts =>
        refine Or.inr (Or.inl ⟨?_, fun outside => ?_⟩)
        · rw [errand?_eq found (congrArg Prod.fst (acts _)), reads, Bool.or_true, if_pos rfl]
          rfl
        · rw [stepped, stepped, acts, acts, land_facing, land_facing, Progress.facing_facing]
          rfl
    | line text inner answer prints acts =>
        refine Or.inr (Or.inr ⟨text, ?_, fun outside => ?_⟩)
        · rw [errand?_eq found (congrArg Prod.fst (acts _)), prints, Bool.true_or, if_pos rfl]
          rfl
        · rw [stepped, stepped, acts, acts, land_facing, land_facing, Progress.facing_facing]
          rfl

end Steps

/-! ## Whole runs -/

theorem follow_close (world : World) (outcome : Except CallError (Option Value))
    (outside : Outside) :
    (Attended.close world outcome).follow outside =
      ((world.facing outside).ask .flush, Session.settle (world.facing outside) outcome) := by
  cases refusal : outside.sink.refusal? .flush <;>
    simp only [Attended.close, Attended.follow, Session.settle, World.facing, World.ask,
      Outside.serve, refusal]

/-- An attended run comes to what the run comes to with what lies outside. -/
theorem follow_attend (setup : Setup) (fuel : Nat) (progress : Progress) (outside : Outside) :
    (attend setup fuel progress).follow outside =
      ((run setup fuel (progress.facing outside)).1.ask .flush,
        Session.settle (run setup fuel (progress.facing outside)).1
          (run setup fuel (progress.facing outside)).2) := by
  induction fuel generalizing progress outside with
  | zero => cases progress <;> exact follow_close ..
  | succ fuel ih =>
      cases progress with
      | ended world outcome => exact follow_close ..
      | running state =>
          rcases step_facing setup state with ⟨errand, stepped⟩ | ⟨errand, stepped⟩ |
            ⟨line, errand, stepped⟩
          · simp only [attend, errand, Progress.facing, run]
            rw [ih, ← stepped]
          · simp only [attend, errand, Attended.follow, Progress.facing, run]
            rw [ih, ← stepped]
          · simp only [attend, errand, Attended.follow, Progress.facing, run]
            rw [ih, ← stepped]

namespace Session

/-- A session with another outside. -/
def facing (session : Session) (outside : Outside) : Session :=
  { session with world := session.world.facing outside }

theorem begin_facing (session : Session) (outside : Outside) (name : String)
    (arguments : List Value) :
    (session.facing outside).begin name arguments =
      (session.begin name arguments).map (·.facing outside) := by
  simp only [begin, facing]
  cases session.setup.file.method? name with
  | none => rfl
  | some method =>
      simp only [activate_facing]
      split
      · rfl
      · exact congrArg some
          (activate_facing (session.world.allocate (.plain session.setup.file.name)).1 outside ..)

/-- A call that is attended to comes to what the call comes to: it changes the world alike, and has
the same outcome. -/
theorem follow_attend (session : Session) (name : String) (arguments : List Value)
    (outside : Outside) :
    (session.attend name arguments).follow outside =
      (((session.facing outside).invoke name arguments).1.world,
        ((session.facing outside).invoke name arguments).2) := by
  rw [attend, invoke, begin_facing]
  cases session.begin name arguments with
  | none => rfl
  | some progress => exact Machine.follow_attend ..

end Session
end Machine
end MethodTracing
