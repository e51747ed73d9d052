import MethodTracing.Proofs.Machine.Sessions

/-!
# Heaps that only grow

Objects are made at the end of the heap and stay there.  A text under construction becomes longer;
nothing else about an object changes.  What is shared stays what it is shared as, and there is one
console at most.
-/

namespace MethodTracing
namespace Machine

/-- What an object can have become at a later time. -/
inductive Object.Grows : Object → Object → Prop
  | same (object : Object) : Grows object object
  | longer (content more : String) : Grows (.builder content) (.builder (content ++ more))

namespace Object

theorem Grows.trans {first second third : Object} (left : first.Grows second)
    (right : second.Grows third) : first.Grows third := by
  cases left with
  | same => exact right
  | longer content more =>
      cases right with
      | same => exact .longer content more
      | longer _ further =>
          rw [String.append_assoc]
          exact .longer content (more ++ further)

theorem grows_extend (object : Object) (more : String) : object.Grows (object.extend more) := by
  cases object with
  | builder content => exact .longer content more
  | _ => exact .same _

theorem extend_eq_console_iff {object : Object} {more : String} :
    object.extend more = .console ↔ object = .console := by
  cases object <;> simp [extend]

end Object

namespace World

variable {world : World}

/-- All objects of a heap are in the same places of a later one, and have become what they can have
become. -/
structure Grows (before after : World) : Prop where
  size_le : before.heap.size ≤ after.heap.size
  objects : ∀ {handle object}, before.object? handle = some object →
    ∃ later, after.object? handle = some later ∧ object.Grows later

theorem Grows.refl (world : World) : world.Grows world :=
  ⟨Nat.le_refl _, fun {_ object} found => ⟨object, found, .same object⟩⟩

theorem Grows.trans {first second third : World} (left : first.Grows second)
    (right : second.Grows third) : first.Grows third := by
  refine ⟨Nat.le_trans left.size_le right.size_le, fun found => ?_⟩
  obtain ⟨later, found_later, grows⟩ := left.objects found
  obtain ⟨last, found_last, grows_further⟩ := right.objects found_later
  exact ⟨last, found_last, grows.trans grows_further⟩

/-- A heap with further objects at its end. -/
theorem grows_of_extends {after : World} (size_le : world.heap.size ≤ after.heap.size)
    (kept : world.Extends after) : world.Grows after :=
  ⟨size_le, fun {_ object} found => ⟨object, kept.objects found, .same object⟩⟩

theorem grows_allocate (world : World) (made : Object) : world.Grows (world.allocate made).1 :=
  grows_of_extends (by simp [allocate]) (extends_allocate world made)

theorem grows_ask (world : World) (request : Request) : world.Grows (world.ask request) :=
  ⟨Nat.le_refl _, (Grows.refl world).objects⟩

theorem grows_extend (world : World) (receiver : ObjectId) (more : String) :
    world.Grows (world.extend receiver more) := by
  refine ⟨by simp [extend], fun {handle object} found => ?_⟩
  rw [object?_extend, found]
  split
  · exact ⟨object.extend more, rfl, object.grows_extend more⟩
  · exact ⟨object, rfl, .same object⟩

/-- Whatever an instruction does, the heap grows at its end only. -/
theorem Turns.grows {prints : Bool} {after : World} (turns : Turns prints world after) :
    world.Grows after := by
  cases turns with
  | constant content =>
      rw [World.constant]
      split
      · exact .refl world
      · exact ⟨(grows_allocate world _).size_le, (grows_allocate world _).objects⟩
  | console =>
      rw [theConsole]
      split
      · exact .refl world
      · exact ⟨(grows_allocate world _).size_le, (grows_allocate world _).objects⟩
  | allocate object _ => exact grows_allocate world object
  | extend receiver more => exact grows_extend world receiver more
  | _ => exact ⟨Nat.le_refl _, (Grows.refl world).objects⟩

/-! ## Shared objects -/

/-- Every shared constant is a text with its content, and the only console is the shared one. -/
structure Faithful (world : World) : Prop where
  constants : ∀ entry ∈ world.constants, world.object? entry.2 = some (.text entry.1)
  console_iff : ∀ object, world.object? object = some .console ↔ world.console = some object

theorem Faithful.coherent (faithful : world.Faithful) : world.Coherent where
  constants content object shared := by
    obtain ⟨before, after, entries_eq, -⟩ := List.lookup_eq_some_iff.mp shared
    exact faithful.constants (content, object) (by simp [entries_eq])
  console object shared := (faithful.console_iff object).mpr shared

theorem faithful_initial (clock : Clock) (sink : Sink) : (initial clock sink).Faithful :=
  ⟨by simp [initial], by simp [initial, object?]⟩

theorem object?_allocate_eq_some_iff {made object : Object} {handle : ObjectId} :
    (world.allocate made).1.object? handle = some object ↔
      world.object? handle = some object ∨
        handle = (world.allocate made).2 ∧ object = made := by
  obtain ⟨index⟩ := handle
  simp only [allocate, object?, Array.getElem?_push, ObjectId.mk.injEq]
  split
  · rename_i at_end
    simp [at_end, eq_comm]
  · rename_i inside
    simp [inside]

theorem Faithful.allocate (faithful : world.Faithful) {made : Object} (ordinary : made ≠ .console) :
    (world.allocate made).1.Faithful := by
  refine ⟨fun entry shared => object?_allocate made (faithful.constants entry shared),
    fun object => ?_⟩
  rw [object?_allocate_eq_some_iff, faithful.console_iff]
  simp [World.allocate, ordinary.symm]

theorem Faithful.constant (faithful : world.Faithful) (content : String) :
    (world.constant content).1.Faithful := by
  rw [World.constant]
  split
  · exact faithful
  · have allocated : (world.allocate (.text content)).1.Faithful := faithful.allocate (by simp)
    refine ⟨fun entry shared => ?_, allocated.console_iff⟩
    rcases List.mem_cons.mp shared with rfl | old
    · exact object?_allocate_self world (.text content)
    · exact allocated.constants entry old

theorem Faithful.theConsole (faithful : world.Faithful) : world.theConsole.1.Faithful := by
  rw [World.theConsole]
  split
  · exact faithful
  · rename_i unset
    refine ⟨fun entry shared => object?_allocate _ (faithful.constants entry shared),
      fun object => ?_⟩
    have nowhere : world.object? object ≠ some .console := by
      rw [Ne, faithful.console_iff, unset]
      simp
    change (world.allocate .console).1.object? object = some .console ↔
      some (world.allocate .console).2 = some object
    rw [object?_allocate_eq_some_iff]
    simp [nowhere, eq_comm]

theorem Faithful.extend (faithful : world.Faithful) (receiver : ObjectId) (more : String) :
    (world.extend receiver more).Faithful := by
  refine ⟨fun entry shared => ?_, fun object => ?_⟩
  · rw [object?_extend, faithful.constants entry shared]
    split <;> rfl
  · refine Iff.trans ?_ (faithful.console_iff object)
    rw [object?_extend]
    split
    · simp [Object.extend_eq_console_iff]
    · rfl

/-- Whatever an instruction does, what is shared stays what it is shared as. -/
theorem Turns.faithful {prints : Bool} {after : World} (turns : Turns prints world after)
    (faithful : world.Faithful) : after.Faithful := by
  cases turns with
  | constant content => exact faithful.constant content
  | console => exact faithful.theConsole
  | allocate object ordinary => exact faithful.allocate ordinary
  | extend receiver more => exact faithful.extend receiver more
  | _ => exact ⟨faithful.constants, faithful.console_iff⟩

end World

/-! ## Runs -/

/-- Of two worlds of a run, the heap of the earlier one grows to that of the later one. -/
theorem pairwise_trail (setup : Setup) (fuel : Nat) (progress : Progress) :
    (trail setup fuel progress).Pairwise World.Grows := by
  induction fuel generalizing progress with
  | zero => cases progress <;> simp [trail, states, run, World.Grows.refl]
  | succ fuel ih =>
      cases progress with
      | ended world outcome => simp [trail, states, run]
      | running state =>
          obtain ⟨prints, turns⟩ := step_turns setup state
          rw [trail, states, run, List.map_cons, List.cons_append, List.pairwise_cons]
          exact ⟨forall_trail state.world.Grows (fun turns grown => grown.trans turns.grows) setup
            fuel turns.grows, ih _⟩

end Machine
end MethodTracing
