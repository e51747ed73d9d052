import MethodTracing.Proofs.Machine.Runs
import MethodTracing.Proofs.Machine.Worlds

/-!
# Sessions that arise

A session arises from a fresh one by calls, which may change its limits in between.  Its world is
coherent at all times.
-/

namespace MethodTracing
namespace Machine

theorem world_activate (setup : Setup) (world : World) (callers : List Activation) (method : Method)
    (arguments : List Value) : (activate setup world callers method arguments).world = world := by
  unfold activate
  repeat' split
  all_goals rfl

theorem world_resume (world : World) (value : Option Value) (callers : List Activation) :
    (resume world value callers).world = world := by
  unfold resume
  repeat' split
  all_goals rfl

/-- A step leaves the world as its instruction does, whatever else it does. -/
theorem world_step (setup : Setup) (state : State) :
    (step setup state).world =
      match state.current.instruction? with
      | none => state.world
      | some instruction => (perform setup.file state.world state.current.frame instruction).1 := by
  obtain ⟨world, ⟨body, frame, index⟩, callers⟩ := state
  simp only [step, Activation.instruction?]
  cases body.instruction? index with
  | none => rfl
  | some instruction =>
      simp only
      cases perform setup.file world frame instruction with
      | mk after outcome =>
          rcases outcome with (_ | _) | (_ | _ | _ | _)
          · rfl
          · rfl
          · rfl
          · simp only
            split <;> rfl
          · exact world_activate ..
          · exact world_resume ..

/-- A step changes the world in one of the ways in which an instruction can. -/
theorem step_turns (setup : Setup) (state : State) :
    ∃ prints, state.world.Turns prints (step setup state).world := by
  rw [world_step]
  cases state.current.instruction? with
  | none => exact ⟨false, .same⟩
  | some instruction =>
      exact ⟨_, perform_turns setup.file state.world state.current.frame instruction⟩

/-- The worlds that a run goes through, the last one included. -/
def trail (setup : Setup) (fuel : Nat) (progress : Progress) : List World :=
  (states setup fuel progress).map State.world ++ [(run setup fuel progress).1]

/-- What every change of the world keeps holds all along a run. -/
theorem forall_trail (property : World → Prop)
    (kept : ∀ {prints : Bool} {before after : World}, before.Turns prints after →
      property before → property after)
    (setup : Setup) (fuel : Nat) {progress : Progress} (holds : property progress.world) :
    ∀ world ∈ trail setup fuel progress, property world := by
  induction fuel generalizing progress with
  | zero => cases progress <;> simpa [trail, states, run, Progress.world] using holds
  | succ fuel ih =>
      cases progress with
      | ended world outcome => simpa [trail, states, run, Progress.world] using holds
      | running state =>
          obtain ⟨prints, turns⟩ := step_turns setup state
          rw [trail, states, run, List.map_cons, List.cons_append, List.forall_mem_cons]
          exact ⟨holds, ih (kept turns holds)⟩

/-- What every change of the world keeps holds at the end of a run. -/
theorem world_run (property : World → Prop)
    (kept : ∀ {prints : Bool} {before after : World}, before.Turns prints after →
      property before → property after)
    (setup : Setup) (fuel : Nat) {progress : Progress} (holds : property progress.world) :
    property (run setup fuel progress).1 :=
  forall_trail property kept setup fuel holds _ (by simp [trail])

/-- A run prints onto what was printed before. -/
theorem printed_run_grows (setup : Setup) (fuel : Nat) (progress : Progress) :
    progress.world.printed.toList <+: (run setup fuel progress).1.printed.toList :=
  world_run (fun world => progress.world.printed.toList <+: world.printed.toList)
    (fun turns before => before.trans turns.printed_grows) setup fuel List.prefix_rfl

namespace Session

/-- A session over a class with chosen limits. -/
def fresh (file : ClassFile) (callDepth fuel : Nat) (clock : Clock) (sink : Sink) : Session :=
  ⟨⟨file, callDepth⟩, fuel, .initial clock sink⟩

/-- The states that a call goes through. -/
def visited (session : Session) (name : String) (arguments : List Value) : List State :=
  ((session.begin name arguments).map (states session.setup session.fuel)).getD []

/-- A session that a fresh one over a class can become. -/
inductive Arises (file : ClassFile) : Session → Prop
  | start (callDepth fuel : Nat) (clock : Clock) (sink : Sink) :
      Arises file ⟨⟨file, callDepth⟩, fuel, .initial clock sink⟩
  | limit {session : Session} (callDepth fuel : Nat) : Arises file session →
      Arises file ⟨⟨file, callDepth⟩, fuel, session.world⟩
  | invoke {session : Session} (name : String) (arguments : List Value) : Arises file session →
      Arises file (session.invoke name arguments).1

theorem setup_invoke (session : Session) (name : String) (arguments : List Value) :
    (session.invoke name arguments).1.setup = session.setup := by
  rw [Session.invoke]
  split <;> rfl

theorem coherent_begin {session : Session} (coherent : session.world.Coherent) {name : String}
    {arguments : List Value} {progress : Progress}
    (begun : session.begin name arguments = some progress) :
    progress.world.Coherent := by
  obtain ⟨method, -, ⟨-, rfl⟩ | ⟨-, rfl⟩⟩ := begin_cases begun
  · rw [world_activate]
    exact coherent
  · rw [world_activate]
    exact World.coherent_allocate coherent (.plain session.setup.file.name)

theorem coherent_invoke {session : Session} (coherent : session.world.Coherent) (name : String)
    (arguments : List Value) : (session.invoke name arguments).1.world.Coherent := by
  cases begun : session.begin name arguments with
  | none =>
      rw [invoke_of_unknown begun]
      exact coherent
  | some progress =>
      rw [invoke_of_begin begun]
      exact World.coherent_ask (world_run World.Coherent World.Turns.coherent session.setup
        session.fuel (coherent_begin coherent begun)) .flush

namespace Arises

variable {file : ClassFile} {session : Session}

theorem file_eq (arises : session.Arises file) : session.setup.file = file := by
  induction arises with
  | start => rfl
  | limit => rfl
  | invoke name arguments _ ih => rw [setup_invoke, ih]

theorem coherent (arises : session.Arises file) : session.world.Coherent := by
  induction arises with
  | start callDepth fuel clock sink => exact World.coherent_initial clock sink
  | limit callDepth fuel _ ih => exact ih
  | invoke name arguments _ ih => exact coherent_invoke ih name arguments

end Arises
end Session
end Machine
end MethodTracing
