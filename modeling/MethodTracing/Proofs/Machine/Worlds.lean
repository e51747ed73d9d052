import Mathlib.Tactic.Common
import MethodTracing.Machine.Step

/-!
# Worlds of the machine

What one instruction can do to the world, and what stays true of it: the shared objects of constants
are texts, the shared console is a console, and lines are printed by `println` only.
-/

namespace MethodTracing
namespace Machine
namespace World

variable {world : World}

/-! ## Objects -/

@[simp]
theorem object?_allocate_self (world : World) (object : Object) :
    (world.allocate object).1.object? (world.allocate object).2 = some object := by
  simp [allocate, object?]

theorem object?_allocate {handle : ObjectId} {object : Object} (made : Object)
    (found : world.object? handle = some object) :
    (world.allocate made).1.object? handle = some object := by
  simp only [object?] at found
  obtain ⟨in_range, -⟩ := Array.getElem?_eq_some_iff.mp found
  simp [allocate, object?, Array.getElem?_push_lt in_range, ← found]

/-- The handle of a new object led nowhere before. -/
theorem object?_handle_of_allocate (world : World) (made : Object) :
    world.object? (world.allocate made).2 = none := by
  simp [allocate, object?]

theorem object?_extend (world : World) (receiver handle : ObjectId) (more : String) :
    (world.extend receiver more).object? handle =
      if receiver = handle then (world.object? handle).map (·.extend more)
      else world.object? handle := by
  simp only [extend, object?, Array.getElem?_modify]
  by_cases same : receiver = handle
  · simp [same]
  · have different : receiver.index ≠ handle.index := by
      intro index_eq
      apply same
      cases receiver
      cases handle
      simp_all
    simp [same, different]

/-! ## Coherence -/

/-- Shared objects are what they are shared as. -/
structure Coherent (world : World) : Prop where
  /-- The object of a constant is its text. -/
  constants : ∀ content object, world.constants.lookup content = some object →
    world.object? object = some (.text content)
  /-- The object of the console is a console. -/
  console : ∀ object, world.console = some object → world.object? object = some .console

theorem coherent_initial (clock : Clock) (sink : Sink) : (initial clock sink).Coherent :=
  ⟨by simp [initial], by simp [initial]⟩

/-- What lies in a world lies in a later one in the same place. -/
structure Extends (before after : World) : Prop where
  objects : ∀ {handle object}, before.object? handle = some object →
    after.object? handle = some object
  constants : ∀ {content object}, before.constants.lookup content = some object →
    after.constants.lookup content = some object
  console : ∀ {object}, before.console = some object → after.console = some object

theorem Extends.refl (world : World) : world.Extends world :=
  ⟨id, id, id⟩

theorem Extends.trans {first second third : World} (left : first.Extends second)
    (right : second.Extends third) : first.Extends third :=
  ⟨fun found => right.objects (left.objects found),
    fun found => right.constants (left.constants found),
    fun found => right.console (left.console found)⟩

theorem extends_allocate (world : World) (made : Object) :
    world.Extends (world.allocate made).1 :=
  ⟨object?_allocate made, id, id⟩

theorem coherent_allocate (coherent : world.Coherent) (made : Object) :
    (world.allocate made).1.Coherent :=
  ⟨fun content object shared => object?_allocate made (coherent.constants content object shared),
    fun object shared => object?_allocate made (coherent.console object shared)⟩

/-- Asking for a constant answers its text and keeps everything else. -/
theorem constant_spec (coherent : world.Coherent) (content : String) :
    (world.constant content).1.Coherent ∧ world.Extends (world.constant content).1 ∧
      (world.constant content).1.constants.lookup content = some (world.constant content).2 ∧
      (world.constant content).1.clock = world.clock ∧
      (world.constant content).1.sink = world.sink ∧
      (world.constant content).1.printed = world.printed := by
  unfold constant
  cases known : world.constants.lookup content with
  | some object => exact ⟨coherent, .refl world, known, rfl, rfl, rfl⟩
  | none =>
      refine ⟨⟨fun other object shared => ?_, (coherent_allocate coherent _).console⟩,
        ⟨object?_allocate _, fun {other object} shared => ?_, id⟩, ?_, rfl, rfl, rfl⟩
      · simp only [List.lookup_cons] at shared
        split at shared
        · rename_i same
          obtain rfl := Option.some.inj shared
          rw [beq_iff_eq.mp same]
          exact object?_allocate_self world (.text content)
        · exact (coherent_allocate coherent _).constants other object shared
      · have different : (other == content) = false := by
          by_contra same
          simp only [Bool.not_eq_false, beq_iff_eq] at same
          rw [same, known] at shared
          simp at shared
        simp only [List.lookup_cons, different]
        exact shared
      · simp

/-- Asking for the console answers it and keeps everything else. -/
theorem theConsole_spec (coherent : world.Coherent) :
    world.theConsole.1.Coherent ∧ world.Extends world.theConsole.1 ∧
      world.theConsole.1.console = some world.theConsole.2 ∧
      world.theConsole.1.clock = world.clock ∧ world.theConsole.1.sink = world.sink ∧
      world.theConsole.1.printed = world.printed := by
  unfold theConsole
  cases known : world.console with
  | some object => exact ⟨coherent, .refl world, known, rfl, rfl, rfl⟩
  | none =>
      refine ⟨⟨(coherent_allocate coherent _).constants, fun object shared => ?_⟩,
        ⟨object?_allocate _, id, fun shared => ?_⟩, rfl, rfl, rfl, rfl⟩
      · obtain rfl := Option.some.inj shared
        exact object?_allocate_self world .console
      · rw [known] at shared
        simp at shared

@[simp]
theorem printed_constant (world : World) (content : String) :
    (world.constant content).1.printed = world.printed := by
  rw [constant]
  split <;> rfl

@[simp]
theorem printed_theConsole (world : World) : world.theConsole.1.printed = world.printed := by
  rw [theConsole]
  split <;> rfl

theorem coherent_extend (coherent : world.Coherent) (receiver : ObjectId) (more : String) :
    (world.extend receiver more).Coherent := by
  have kept {handle : ObjectId} {object : Object} (found : world.object? handle = some object)
      (fixed : object.extend more = object) :
      (world.extend receiver more).object? handle = some object := by
    rw [object?_extend, found]
    split <;> simp [fixed]
  exact ⟨fun content object shared => kept (coherent.constants content object shared) rfl,
    fun object shared => kept (coherent.console object shared) rfl⟩

theorem coherent_ask (coherent : world.Coherent) (request : Request) :
    (world.ask request).Coherent :=
  ⟨coherent.constants, coherent.console⟩

theorem coherent_print (coherent : world.Coherent) (line : String) : (world.print line).Coherent :=
  ⟨coherent.constants, coherent.console⟩

theorem extends_print (world : World) (line : String) : world.Extends (world.print line) :=
  ⟨id, id, id⟩

theorem coherent_readClock (coherent : world.Coherent) : world.readClock.1.Coherent :=
  ⟨coherent.constants, coherent.console⟩

theorem extends_readClock (world : World) : world.Extends world.readClock.1 :=
  ⟨id, id, id⟩

/-! ## What an instruction does to the world -/

/-- The ways in which the world changes in one step; lines are printed only if `prints`, and no
console is made but the shared one. -/
inductive Turns (prints : Bool) (world : World) : World → Prop
  | same : Turns prints world world
  | constant (content : String) : Turns prints world (world.constant content).1
  | console : Turns prints world world.theConsole.1
  | allocate (object : Object) : object ≠ .console → Turns prints world (world.allocate object).1
  | clock : Turns prints world world.readClock.1
  | extend (receiver : ObjectId) (more : String) : Turns prints world (world.extend receiver more)
  | ask (request : Request) : Turns prints world (world.ask request)
  | print (line : String) : prints = true → Turns prints world (world.print line)

theorem Turns.coherent {prints : Bool} {after : World} (turns : Turns prints world after)
    (coherent : world.Coherent) : after.Coherent := by
  cases turns with
  | same => exact coherent
  | constant content => exact (constant_spec coherent content).1
  | console => exact (theConsole_spec coherent).1
  | allocate object _ => exact coherent_allocate coherent object
  | clock => exact coherent_readClock coherent
  | extend receiver more => exact coherent_extend coherent receiver more
  | ask request => exact coherent_ask coherent request
  | print line _ => exact coherent_print coherent line

theorem Turns.printed_eq {after : World} (turns : Turns false world after) :
    after.printed = world.printed := by
  cases turns with
  | constant content => exact printed_constant world content
  | console => exact printed_theConsole world
  | print line allowed => simp at allowed
  | _ => rfl

/-- Printed lines stay printed. -/
theorem Turns.printed_grows {prints : Bool} {after : World} (turns : Turns prints world after) :
    world.printed.toList <+: after.printed.toList := by
  cases turns with
  | constant content => simp
  | console => simp
  | print line _ => exact ⟨[line], by simp [World.print]⟩
  | _ => exact List.prefix_rfl

/-- The sink stays the same one, whatever it was asked for. -/
theorem Turns.failure?_eq {prints : Bool} {after : World} (turns : Turns prints world after) :
    after.sink.failure? = world.sink.failure? := by
  cases turns with
  | constant content =>
      rw [World.constant]
      split <;> rfl
  | console =>
      rw [theConsole]
      split <;> rfl
  | _ => rfl

end World

theorem callOn_turns (world : World) (receiver : ObjectId) (arguments : List Value)
    (method : MethodRef) :
    world.Turns (Instruction.invoke .virtual method).isPrintln
      (callOn world receiver arguments method).1 := by
  unfold callOn
  split
  · rename_i is_println
    repeat' split
    all_goals
      first
      | exact .same
      | exact .ask _
      | exact .print _ (by simpa [Instruction.isPrintln] using is_println)
  · split
    · repeat' split
      all_goals first | exact .same | exact .extend _ _
    · split
      · split
        · exact .allocate _ (by simp)
        · exact .same
      · exact .same

theorem invoke_turns (file : ClassFile) (world : World) (frame : Frame) (arguments : List Value)
    (method : MethodRef) (call : CallKind) :
    world.Turns (Instruction.invoke call method).isPrintln
      (invoke file world frame arguments method call).1 := by
  cases call with
  | special =>
      simp only [invoke]
      repeat' split
      all_goals exact .same
  | virtual =>
      simp only [invoke]
      split
      · exact .same
      · rename_i receiver rest _
        have turns := callOn_turns world receiver arguments method
        split <;> simp_all
  | direct =>
      simp only [invoke]
      split
      · exact .clock
      · repeat' split
        all_goals exact .same

/-- One instruction changes the world in one of these ways. -/
theorem perform_turns (file : ClassFile) (world : World) (frame : Frame)
    (instruction : Instruction) :
    world.Turns instruction.isPrintln (perform file world frame instruction).1 := by
  cases instruction with
  | ldc content => exact .constant content
  | getStatic field =>
      simp only [perform]
      split
      · exact .console
      · exact .same
  | new className => exact .allocate _ (by split <;> simp)
  | invoke call method =>
      simp only [perform]
      split
      · exact .same
      · exact invoke_turns file world _ _ method call
  | ret kind =>
      cases kind with
      | none => exact .same
      | some kind =>
          simp only [perform]
          split <;> exact .same
  | athrow =>
      simp only [perform]
      split <;> exact .same
  | _ => exact .same

end Machine
end MethodTracing
