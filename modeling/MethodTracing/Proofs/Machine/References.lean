import MethodTracing.Proofs.Machine.Independence

/-!
# References that lead somewhere

Two runs that make their objects in different places are compared by the images of their objects.
A run agrees with itself in this sense, whatever it executes: reading the clock and showing the place
of an object make no difference then.  Only objects have images, so every reference that a run holds
leads to an object of its world.
-/

namespace MethodTracing
namespace Machine

/-- A value that is no reference, or one to an object of the heap. -/
def Value.Resolves (value : Value) (world : World) : Prop :=
  ∀ object, value = .reference object → object.index < world.heap.size

variable {images : List ObjectId} {world image : World}

theorem Value.Matches.resolves {value imaged : Value} (matched : value.Matches images imaged)
    (worlds : world.Matches images image) : value.Resolves world := by
  rintro object rfl
  cases matched with
  | reference found => exact worlds.size ▸ (List.getElem?_eq_some_iff.mp found).1

theorem Value.Same.resolves {value imaged : Value} (same : value.Same world image imaged) :
    value.Resolves world := by
  rintro object rfl
  cases same with
  | equal no_reference => exact absurd rfl (no_reference object)
  | object found _ => exact (Array.getElem?_eq_some_iff.mp found).1

/-! ## Worlds that agree with themselves -/

namespace World

/-- Handles of all objects, in the order of their places. -/
def handles (world : World) : List ObjectId :=
  (List.range world.heap.size).map ObjectId.mk

theorem getElem?_handles {object imaged : ObjectId} :
    world.handles[object.index]? = some imaged ↔
      object.index < world.heap.size ∧ object = imaged := by
  simp only [handles, List.getElem?_map, Option.map_eq_some_iff, List.getElem?_eq_some_iff,
    List.length_range, List.getElem_range]
  constructor
  · rintro ⟨_, ⟨inside, rfl⟩, rfl⟩
    exact ⟨inside, rfl⟩
  · rintro ⟨inside, rfl⟩
    exact ⟨object.index, ⟨inside, rfl⟩, rfl⟩

theorem index_lt_of_object? {handle : ObjectId} {object : Object}
    (found : world.object? handle = some object) : handle.index < world.heap.size :=
  (Array.getElem?_eq_some_iff.mp found).1

/-- Each object is its own image. -/
theorem Coherent.matches_self (coherent : world.Coherent) : world.Matches world.handles world where
  coherent := coherent
  size := by simp [handles]
  objects found := by rw [(getElem?_handles.mp found).2]
  builders left right _ := (getElem?_handles.mp left).2.trans (getElem?_handles.mp right).2.symm
  constants {content object} shared :=
    ⟨object, getElem?_handles.mpr
      ⟨index_lt_of_object? (coherent.constants content object shared), rfl⟩, shared⟩
  console {object} shared :=
    ⟨object, getElem?_handles.mpr ⟨index_lt_of_object? (coherent.console object shared), rfl⟩,
      shared⟩
  sink := Or.inl rfl

end World

/-! ## Instructions -/

/-- A computation has related answers if it is mirrored by itself. -/
theorem Mirrors.related_self {ε α : Type} {excused : ε → Prop} {related : α → α → Prop}
    {computation : Except ε α} (mirrors : Mirrors excused related computation computation)
    {answer : α} (answered : computation = .ok answer) : related answer answer := by
  subst answered
  cases mirrors with
  | ok related => exact related

/-- The world that comes of an instruction agrees with itself, and so does the answer. -/
def Consistent {α : Type} (related : List ObjectId → α → α → Prop) (images : List ObjectId)
    (result : World × Except Trap α) : Prop :=
  ∃ more, images <+: more ∧ result.1.Matches more result.1 ∧
    ∀ answer, result.2 = .ok answer → related more answer answer

section Instructions

variable {frame : Frame} {body : Body}

theorem consistent_error {α : Type} {related : List ObjectId → α → α → Prop}
    (worlds : world.Matches images world) (trap : Trap) :
    Consistent related images (world, .error trap) :=
  ⟨images, List.prefix_rfl, worlds, by simp⟩

/-- A built-in member answers nothing, its receiver, or a new object. -/
theorem callOn_consistent (worlds : world.Matches images world) {receiver : ObjectId}
    (found : images[receiver.index]? = some receiver) (arguments : List Value)
    (method : MethodRef) :
    Consistent (fun more => Option.Rel (Value.Matches more)) images
      (callOn world receiver arguments method) := by
  unfold callOn
  split
  · repeat' split
    all_goals first
      | exact consistent_error worlds _
      | exact ⟨images, List.prefix_rfl, (worlds.moves_ask _).matched, by simp⟩
      | exact ⟨images, List.prefix_rfl, (worlds.moves_print _).matched,
          fun answer answered => Except.ok.inj answered ▸ .none⟩
  · split
    · repeat' split
      all_goals first
        | exact consistent_error worlds _
        | exact ⟨images, List.prefix_rfl,
            (worlds.moves_extend found (by assumption) _).matched,
            fun answer answered => Except.ok.inj answered ▸ .some (.reference found)⟩
    · split
      · split
        · rename_i content _
          have answers := World.found_allocate worlds (.text content)
            (world.allocate (.text content)).2
          exact ⟨_, List.prefix_append _ _, (worlds.moves_allocate (.text content)).matched,
            fun answer answered => Except.ok.inj answered ▸ .some (.reference answers)⟩
        · exact consistent_error worlds _
      · exact consistent_error worlds _

/-- Instructions that show nothing do the same in any two worlds that agree. -/
theorem perform_consistent_of_oblivious (file : ClassFile) (worlds : world.Matches images world)
    (frames : frame.Matches images body.margin frame) {instruction : Instruction}
    (timeless : instruction.readsClock = false)
    (readable : rendersPlain world frame instruction = false) :
    Consistent (Transfer.Matches Eq body.margin) images
      (perform file world frame instruction) := by
  obtain ⟨more, moves, outcomes⟩ := perform_resembles file body worlds frames timeless readable
  refine ⟨more, moves.grows, moves.matched, fun transfer performed => ?_⟩
  rcases outcomes with ⟨first, second, here, there, matched⟩ | ⟨trap, failed, -⟩
  · obtain rfl := Except.ok.inj (performed.symm.trans here)
    obtain rfl := Except.ok.inj (performed.symm.trans there)
    exact matched
  · rw [performed] at failed
    cases failed

/-- Reading the clock changes no object. -/
theorem World.Matches.readClock (worlds : world.Matches images world) :
    world.readClock.1.Matches images world.readClock.1 :=
  ⟨World.coherent_readClock worlds.coherent, worlds.size, worlds.objects, worlds.builders,
    worlds.constants, worlds.console, worlds.sink⟩

theorem invoke_virtual_consistent (file : ClassFile) (worlds : world.Matches images world)
    (frames : frame.Matches images body.margin frame) (arguments : List Value)
    (method : MethodRef) :
    Consistent (Transfer.Matches Eq body.margin) images
      (invoke file world frame arguments method .virtual) := by
  simp only [invoke]
  cases taken : frame.popReference with
  | error fault => exact consistent_error worlds _
  | ok popped =>
      obtain ⟨receiver, rest⟩ := popped
      obtain ⟨found, rests⟩ := (Frame.popReference_follows frames).related_self taken
      have called := callOn_consistent worlds found arguments method
      simp only
      generalize callOn world receiver arguments method = result at called ⊢
      obtain ⟨after, outcome⟩ := result
      obtain ⟨more, grows, afters, values⟩ := called
      cases outcome with
      | error trap => exact ⟨more, grows, afters, by simp⟩
      | ok value =>
          exact ⟨more, grows, afters, fun transfer pushed =>
            (pushResult_mirrors (rests.mono grows) (values value rfl)).related_self pushed⟩

/-- Any instruction does the same in a world as in that world. -/
theorem perform_consistent (file : ClassFile) (worlds : world.Matches images world)
    (frames : frame.Matches images body.margin frame) (instruction : Instruction) :
    Consistent (Transfer.Matches Eq body.margin) images
      (perform file world frame instruction) := by
  cases instruction with
  | invoke call method =>
      cases call with
      | special => exact perform_consistent_of_oblivious file worlds frames rfl rfl
      | virtual =>
          simp only [perform]
          cases popped : frame.popArguments method.type.parameters with
          | error fault => exact consistent_error worlds _
          | ok answer =>
              have rests := ((Frame.popArguments_follows frames _).related_self popped).2
              exact invoke_virtual_consistent file worlds rests answer.1 method
      | direct =>
          by_cases timed : method.owner = Trace.systemClass ∧ method.name = "currentTimeMillis"
          · simp only [perform]
            cases popped : frame.popArguments method.type.parameters with
            | error fault => exact consistent_error worlds _
            | ok answer =>
                have rests := ((Frame.popArguments_follows frames _).related_self popped).2
                simp only [invoke, if_pos timed]
                exact ⟨images, List.prefix_rfl, worlds.readClock, fun transfer pushed =>
                  (pushResult_mirrors rests (.some (.long _))).related_self pushed⟩
          · exact perform_consistent_of_oblivious file worlds frames
              (by simpa [Instruction.readsClock] using timed) rfl
  | _ => exact perform_consistent_of_oblivious file worlds frames rfl rfl

end Instructions

/-! ## Runs -/

/-- The operands and the locals of a frame. -/
def Frame.values (frame : Frame) : List Value :=
  frame.stack ++ frame.locals.toList

/-- The arguments that the instruction to execute takes from the operands to call a method. -/
def State.pending (state : State) : List Value :=
  match state.current.instruction? with
  | some (.invoke _ method) =>
      match state.current.frame.popArguments method.type.parameters with
      | .ok (arguments, _) => arguments
      | .error _ => []
  | _ => []

/-- The values that a run holds, in the activation that executes, in those that wait, and as
arguments. -/
def State.values (state : State) : List Value :=
  (state.current :: state.callers).flatMap (fun activation => activation.frame.values) ++
    state.pending

theorem Frame.Matches.values {frame : Frame} {margin : Margin}
    (matched : frame.Matches images margin frame) :
    ∀ value ∈ frame.values, value.Matches images value := by
  intro value held
  rcases List.mem_append.mp held with on_stack | in_local
  · exact List.forall₂_same.mp matched.stack value on_stack
  · obtain ⟨slot, inside, rfl⟩ := List.getElem_of_mem in_local
    rw [Array.length_toList] at inside
    have local_matched := matched.locals slot (matched.slots ▸ inside)
    simpa [Array.getD_eq_getD_getElem?, inside] using local_matched

namespace State

variable {state : State}

theorem Resembles.pending (resembles : state.Resembles [] images state) :
    ∀ value ∈ state.pending, value.Matches images value := by
  intro value held
  unfold State.pending at held
  split at held
  · split at held
    · rename_i popped
      have related := (Frame.popArguments_follows resembles.current.frame _).related_self popped
      exact List.forall₂_same.mp related.1 value held
    · simp at held
  · simp at held

theorem Resembles.resolves (resembles : state.Resembles [] images state) :
    ∀ value ∈ state.values, value.Resolves state.world := by
  intro value held
  suffices matched : value.Matches images value from matched.resolves resembles.world.objects
  rcases List.mem_append.mp held with in_frame | handed
  · obtain ⟨activation, running, held⟩ := List.mem_flatMap.mp in_frame
    rcases List.mem_cons.mp running with rfl | waiting
    · exact resembles.current.frame.values value held
    · exact (List.forall₂_same.mp resembles.callers activation waiting).frame.values value held
  · exact resembles.pending value handed

/-- A step keeps a run in agreement with itself. -/
theorem Resembles.step (setup : Setup) (resembles : state.Resembles [] images state) :
    (step setup state).Resembles [] (step setup state) := by
  refine step_resembles_of_performsAlike setup resembles fun instruction _ => ?_
  obtain ⟨more, grows, worlds, related⟩ := perform_consistent setup.file resembles.world.objects
    resembles.current.frame instruction
  refine ⟨more, grows, ⟨worlds, rfl⟩, ?_⟩
  cases outcome : (perform setup.file state.world state.current.frame instruction).2 with
  | ok transfer => exact Or.inl ⟨transfer, transfer, rfl, rfl, related transfer outcome⟩
  | error trap => exact Or.inr ⟨trap, rfl, rfl⟩

end State

/-- A run that agrees with itself goes on in such a state or has ended with such an outcome. -/
theorem Progress.Resembles.meets {progress : Progress}
    (resembles : progress.Resembles [] progress) :
    progress.Meets (fun state => ∃ images, state.Resembles [] images state)
      fun world outcome => SameOutcome world world outcome outcome := by
  cases resembles with
  | running resembles => exact ⟨_, resembles⟩
  | ended _ same => exact same

section Runs

variable {setup : Setup} {progress : Progress}

/-- Every reference that a run holds leads to an object. -/
theorem states_resolve (resembles : progress.Resembles [] progress) (fuel : Nat) :
    ∀ state ∈ states setup fuel progress, ∀ value ∈ state.values, value.Resolves state.world := by
  intro state visited
  obtain ⟨images, resembles⟩ := states_meet
    (fun _ ⟨_, resembles⟩ => (resembles.step setup).meets) fuel resembles.meets state visited
  exact resembles.resolves

/-- A reference that a run answers leads to an object. -/
theorem run_resolves (resembles : progress.Resembles [] progress) (fuel : Nat) {value : Value}
    (answered : (run setup fuel progress).2 = .ok (some value)) :
    value.Resolves (run setup fuel progress).1 := by
  have same := run_meets (fun _ ⟨_, resembles⟩ => (resembles.step setup).meets)
    (fun _ _ => .failure _) fuel resembles.meets
  rw [answered] at same
  cases same with
  | value same => exact same.resolves

end Runs

/-- A call whose arguments are no references begins in agreement with itself. -/
theorem Session.begin_resembles_self {session : Session} (coherent : session.world.Coherent)
    {name : String} {arguments : List Value}
    (no_reference : ∀ object, Value.reference object ∉ arguments)
    (begun : session.begin name arguments = some progress) : progress.Resembles [] progress := by
  have worlds : session.world.Resembles [] session.world.handles session.world :=
    ⟨coherent.matches_self, rfl⟩
  rcases begin_resembles_of_world worlds name no_reference with
    ⟨-, not_begun⟩ | ⟨first, second, first_begun, second_begun, resembles⟩
  · rw [begun] at not_begun
    cases not_begun
  · obtain rfl := Option.some.inj (begun.symm.trans first_begun)
    obtain rfl := Option.some.inj (begun.symm.trans second_begun)
    exact resembles

end Machine
end MethodTracing
