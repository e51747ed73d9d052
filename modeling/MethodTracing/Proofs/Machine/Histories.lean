import MethodTracing.Proofs.Machine.Heaps
import MethodTracing.Proofs.Machine.References

/-!
# Histories of sessions

A history lists what a session holds before and during its calls and when they have ended, whether
they answer, fail or are cut off.  Main statement: at all times shared objects are what they are
shared as and every reference leads to an object, and from one time to any later one the heap grows
at its end only.
-/

namespace MethodTracing
namespace Machine

/-- What a session holds at one time: its world, and the values that a call in progress holds or
has just answered. -/
structure Moment where
  /-- The world. -/
  world : World
  /-- The values. -/
  values : List Value

/-- Shared objects are what they are shared as, and every reference leads to an object. -/
structure Moment.Intact (moment : Moment) : Prop where
  faithful : moment.world.Faithful
  resolves : ∀ value ∈ moment.values, value.Resolves moment.world

/-- What a run holds between two instructions. -/
def State.moment (state : State) : Moment :=
  ⟨state.world, state.values⟩

/-- A call from outside. -/
structure Call where
  /-- Name of the method. -/
  name : String
  /-- The arguments, without the receiver. -/
  arguments : List Value

namespace Session

variable {session : Session}

/-- What is handed over to a method: a new receiver if it has one, and the arguments. -/
def handOver (session : Session) (method : Method) (arguments : List Value) : Moment :=
  if method.declaration.access.isStatic then ⟨session.world, arguments⟩
  else
    let (world, receiver) := session.world.allocate (.plain session.setup.file.name)
    ⟨world, .reference receiver :: arguments⟩

/-- Enter a method with what is handed over to it. -/
def enter (session : Session) (method : Method) (arguments : List Value) : Progress :=
  activate session.setup (session.handOver method arguments).world [] method
    (session.handOver method arguments).values

/-- The value of an outcome, if there is one. -/
def answered : Except CallError (Option Value) → List Value
  | .ok (some value) => [value]
  | _ => []

/-- What a session holds from the beginning of a call, before each instruction, to its end. -/
def moments (session : Session) (name : String) (arguments : List Value) : List Moment :=
  match session.setup.file.method? name with
  | none => []
  | some method =>
      session.handOver method arguments ::
        ((session.visited name arguments).map State.moment ++
          [⟨(session.invoke name arguments).1.world,
            answered (session.invoke name arguments).2⟩])

/-- What a session holds at all times of a sequence of calls. -/
def history (session : Session) : List Call → List Moment
  | [] => [⟨session.world, []⟩]
  | call :: calls =>
      ⟨session.world, []⟩ ::
        (session.moments call.name call.arguments ++
          (session.invoke call.name call.arguments).1.history calls)

/-! ## The moments of one call -/

section Calls

variable {name : String} {arguments : List Value} {method : Method}

theorem begin_of_found (found : session.setup.file.method? name = some method)
    (arguments : List Value) :
    session.begin name arguments = some (session.enter method arguments) := by
  simp only [begin, found, enter, handOver]
  split <;> rfl

theorem world_enter (session : Session) (method : Method) (arguments : List Value) :
    (session.enter method arguments).world = (session.handOver method arguments).world :=
  world_activate ..

theorem grows_enter (session : Session) (method : Method) (arguments : List Value) :
    (session.handOver method arguments).world.Grows (session.enter method arguments).world := by
  rw [world_enter]
  exact .refl _

theorem handOver_turns (session : Session) (method : Method) (arguments : List Value) :
    session.world.Turns false (session.handOver method arguments).world := by
  rw [handOver]
  split
  · exact .same
  · exact .allocate _ (by simp)

theorem handOver_resolves (no_reference : ∀ object, Value.reference object ∉ arguments)
    (method : Method) :
    ∀ value ∈ (session.handOver method arguments).values,
      value.Resolves (session.handOver method arguments).world := by
  have plain (world : World) : ∀ value ∈ arguments, value.Resolves world := by
    rintro value member object rfl
    exact absurd member (no_reference object)
  rw [handOver]
  split
  · exact plain _
  · intro value member
    rcases List.mem_cons.mp member with rfl | member
    · rintro object same
      obtain rfl := Value.reference.inj same
      simp [World.allocate]
    · exact plain _ value member

theorem eq_of_mem_answered {world : World} {outcome : Except CallError (Option Value)}
    {value : Value} (member : value ∈ answered (settle world outcome)) :
    outcome = .ok (some value) := by
  rw [settle] at member
  split at member
  · simp [answered] at member
  · rcases outcome with _ | _ | other
    · simp [answered] at member
    · simp [answered] at member
    · rw [List.mem_singleton.mp member]

/-- The worlds of a call are that of its beginning, those of the states of a run, and the one in
which the run ends, its lines handed over. -/
theorem map_world_moments (found : session.setup.file.method? name = some method)
    (arguments : List Value) :
    (session.moments name arguments).map Moment.world =
      (session.handOver method arguments).world ::
        ((states session.setup session.fuel (session.enter method arguments)).map State.world ++
          [(run session.setup session.fuel (session.enter method arguments)).1.ask .flush]) := by
  have begun := begin_of_found found arguments
  simp only [moments, found, visited, begun, invoke_of_begin begun, List.map_cons,
    List.map_append, List.map_map, Option.map_some, Option.getD_some]
  rfl

theorem moments_of_unknown (unknown : session.setup.file.method? name = none)
    (arguments : List Value) : session.moments name arguments = [] := by
  rw [moments, unknown]

/-- What every change of the world keeps holds all through a call, and when it has ended. -/
theorem forall_moments (property : World → Prop)
    (kept : ∀ {prints : Bool} {before after : World}, before.Turns prints after →
      property before → property after)
    (holds : property session.world) (name : String) (arguments : List Value) :
    (∀ moment ∈ session.moments name arguments, property moment.world) ∧
      property (session.invoke name arguments).1.world := by
  cases found : session.setup.file.method? name with
  | none =>
      rw [moments_of_unknown found, invoke_of_unknown (by simp [begin, found])]
      exact ⟨by simp, holds⟩
  | some method =>
      have handed := kept (session.handOver_turns method arguments) holds
      have entered : property (session.enter method arguments).world :=
        (session.world_enter method arguments).symm ▸ handed
      have along := forall_trail property kept session.setup session.fuel entered
      rw [trail, List.forall_mem_append, List.forall_mem_singleton] at along
      have handed_over := kept (show World.Turns false _ _ from .ask .flush) along.2
      rw [invoke_of_begin (begin_of_found found arguments), ← List.forall_mem_map,
        map_world_moments found, List.forall_mem_cons, List.forall_mem_append,
        List.forall_mem_singleton]
      exact ⟨⟨handed, along.1, handed_over⟩, handed_over⟩

/-- The heap grows all through a call. -/
theorem pairwise_moments (session : Session) (name : String) (arguments : List Value) :
    (session.moments name arguments).Pairwise
      fun earlier later => earlier.world.Grows later.world := by
  cases found : session.setup.file.method? name with
  | none => simp [moments_of_unknown found]
  | some method =>
      have along := forall_trail (session.handOver method arguments).world.Grows
        (fun turns grown => grown.trans turns.grows) session.setup session.fuel
        (session.grows_enter method arguments)
      have ordered := pairwise_trail session.setup session.fuel (session.enter method arguments)
      rw [trail, List.forall_mem_append, List.forall_mem_singleton] at along
      rw [trail, List.pairwise_append] at ordered
      rw [← List.pairwise_map, map_world_moments found, List.pairwise_cons, List.pairwise_append,
        List.forall_mem_append, List.forall_mem_singleton]
      refine ⟨⟨along.1, along.2.trans (World.grows_ask _ _)⟩, ordered.1,
        List.pairwise_singleton _ _,
        fun world visited last at_end => ?_⟩
      rw [List.mem_singleton.mp at_end]
      exact (ordered.2.2 world visited _ (List.mem_singleton_self _)).trans (World.grows_ask _ _)

/-- The heap grows up to the end of a call. -/
theorem moments_grow (session : Session) (name : String) (arguments : List Value) :
    ∀ moment ∈ session.moments name arguments,
      moment.world.Grows (session.invoke name arguments).1.world := by
  cases found : session.setup.file.method? name with
  | none => simp [moments_of_unknown found]
  | some method =>
      have ordered := session.pairwise_moments name arguments
      rw [← List.pairwise_map, map_world_moments found, ← List.cons_append,
        List.pairwise_append] at ordered
      intro moment member
      have listed := List.mem_map_of_mem (f := Moment.world) member
      rw [map_world_moments found, ← List.cons_append, List.mem_append,
        List.mem_singleton] at listed
      rw [invoke_of_begin (begin_of_found found arguments)]
      rcases listed with before | at_end
      · exact ordered.2.2 _ before _ (List.mem_singleton_self _)
      · exact at_end ▸ .refl _

/-- Every reference that a call holds leads to an object. -/
theorem moments_resolve (coherent : session.world.Coherent)
    (no_reference : ∀ object, Value.reference object ∉ arguments) (name : String) :
    ∀ moment ∈ session.moments name arguments,
      ∀ value ∈ moment.values, value.Resolves moment.world := by
  cases found : session.setup.file.method? name with
  | none => simp [moments_of_unknown found]
  | some method =>
      have begun := begin_of_found found arguments
      have resembles := begin_resembles_self coherent no_reference begun
      simp only [moments, found, List.forall_mem_cons, List.forall_mem_append, List.forall_mem_map,
        visited, begun, Option.map_some, Option.getD_some, invoke_of_begin begun]
      exact ⟨handOver_resolves no_reference method, states_resolve resembles session.fuel,
        fun value member => run_resolves resembles session.fuel (eq_of_mem_answered member),
        by simp⟩

end Calls

/-! ## Histories -/

theorem forall_history (property : World → Prop)
    (kept : ∀ {prints : Bool} {before after : World}, before.Turns prints after →
      property before → property after) (calls : List Call) (holds : property session.world) :
    ∀ moment ∈ session.history calls, property moment.world := by
  induction calls generalizing session with
  | nil => simpa [history] using holds
  | cons call calls ih =>
      obtain ⟨during, ended⟩ := forall_moments property kept holds call.name call.arguments
      rw [history, List.forall_mem_cons, List.forall_mem_append]
      exact ⟨holds, during, ih ended⟩

theorem pairwise_history (session : Session) (calls : List Call) :
    (session.history calls).Pairwise fun earlier later => earlier.world.Grows later.world := by
  induction calls generalizing session with
  | nil => simp [history]
  | cons call calls ih =>
      have later {before : World} {session : Session} (grown : before.Grows session.world) :
          ∀ moment ∈ session.history calls, before.Grows moment.world :=
        forall_history before.Grows (fun turns grown => grown.trans turns.grows) calls grown
      obtain ⟨during, ended⟩ := forall_moments session.world.Grows
        (fun turns grown => grown.trans turns.grows) (.refl _) call.name call.arguments
      rw [history, List.pairwise_cons, List.forall_mem_append, List.pairwise_append]
      exact ⟨⟨during, later ended⟩, session.pairwise_moments call.name call.arguments, ih _,
        fun moment member => later (session.moments_grow call.name call.arguments moment member)⟩

theorem history_resolves (faithful : session.world.Faithful) (calls : List Call)
    (no_reference : ∀ call ∈ calls, ∀ object, Value.reference object ∉ call.arguments) :
    ∀ moment ∈ session.history calls, ∀ value ∈ moment.values, value.Resolves moment.world := by
  induction calls generalizing session with
  | nil => simp [history]
  | cons call calls ih =>
      obtain ⟨first, rest⟩ := List.forall_mem_cons.mp no_reference
      have ended := (forall_moments World.Faithful World.Turns.faithful faithful call.name
        call.arguments).2
      rw [history, List.forall_mem_cons, List.forall_mem_append]
      exact ⟨by simp, moments_resolve faithful.coherent first call.name, ih ended rest⟩

/-- Whatever methods of a class are called one after another, with numbers for arguments, and however
the calls end: before each instruction every shared constant is its text, the only console is the
shared one, and every reference among operands, locals and arguments leads to an object.  Later on
the heap has the same objects in the same places, of which only texts under construction may have
become longer. -/
theorem history_intact (file : ClassFile) (callDepth fuel : Nat) (clock : Clock) (sink : Sink)
    (calls : List Call)
    (no_reference : ∀ call ∈ calls, ∀ object, Value.reference object ∉ call.arguments) :
    (∀ moment ∈ (fresh file callDepth fuel clock sink).history calls, moment.Intact) ∧
      ((fresh file callDepth fuel clock sink).history calls).Pairwise
        fun earlier later => earlier.world.Grows later.world := by
  have faithful : (fresh file callDepth fuel clock sink).world.Faithful :=
    World.faithful_initial clock sink
  have all_faithful := forall_history World.Faithful World.Turns.faithful calls faithful
  have all_resolve := history_resolves faithful calls no_reference
  exact ⟨fun moment member => ⟨all_faithful moment member, all_resolve moment member⟩,
    pairwise_history _ calls⟩

/-- A method that is cut off below itself, one that makes objects, and one that there is not. -/
def notingCalls : List Call :=
  [⟨"dive", [.int 4]⟩, ⟨"note", [.int 7]⟩, ⟨"gone", []⟩]

theorem history_intact_notingFile :
    (∀ call ∈ notingCalls, ∀ object, Value.reference object ∉ call.arguments) ∧
    (((fresh notingFile 3 40 (.steady 0 0) .reliable).history notingCalls).getLast?.map
      fun moment => (moment.world.heap.toList, moment.world.constants)) =
        some ([.console, .text "noted", .plain "Noting", .builder "7", .text "7"],
          [("noted", ⟨1⟩)]) ∧
    (∀ moment ∈ (fresh notingFile 3 40 (.steady 0 0) .reliable).history notingCalls, moment.Intact) ∧
    ((fresh notingFile 3 40 (.steady 0 0) .reliable).history notingCalls).Pairwise
      fun earlier later => earlier.world.Grows later.world :=
  have no_reference : ∀ call ∈ notingCalls, ∀ object, Value.reference object ∉ call.arguments := by
    simp [notingCalls]
  ⟨no_reference, by decide +kernel,
    history_intact notingFile 3 40 (.steady 0 0) .reliable notingCalls no_reference⟩

end Session
end Machine
end MethodTracing
