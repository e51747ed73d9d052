import MethodTracing.Proofs.Machine.Sessions
import MethodTracing.Proofs.Machine.Bodies
import MethodTracing.Proofs.Machine.Transfers
import MethodTracing.Proofs.Pipeline.Passes
import MethodTracing.Proofs.Trace.Nesting

/-!
# Runs whose trace lines nest

Every state of a run stands somewhere in the woven bodies of its activations, and the lines printed
so far leave open just the methods whose entry line is out and whose exit line is not.  No
assumption is made on the bodies but that they print nothing themselves.
-/

namespace MethodTracing

/-- A body that prints nothing itself. -/
def Quiet (code : List Instruction) : Prop :=
  ∀ instruction ∈ code, instruction.isPrintln = false

/-- A method that prints nothing itself, or such a method instrumented. -/
def Method.Discreet (method : Method) : Prop :=
  Quiet method.instructions ∨
    ∃ before plan, Quiet before.instructions ∧ Instrumented before method plan

namespace Machine

open Trace Weaving

/-! ## What was printed -/

/-- What was printed since the start of a call leaves the named methods open. -/
def Tells (start : List String) (world : World) (names : List String) : Prop :=
  world.Coherent ∧ ∃ lines, world.printed.toList = start ++ lines ∧ LeavesOpen names lines

/-- However a call ends, the lines it printed can be completed; if it ends well they are
complete. -/
def Concludes (start : List String) (world : World) (outcome : Except CallError (Option Value)) :
    Prop :=
  (∃ names, Tells start world names) ∧ ∀ value, outcome = .ok value → Tells start world []

namespace Tells

variable {start names : List String} {world : World}

theorem concludes_error (tells : Tells start world names) (error : CallError) :
    Concludes start world (.error error) :=
  ⟨⟨names, tells⟩, by simp⟩

theorem quiet {after : World} (tells : Tells start world names)
    (turns : world.Turns false after) : Tells start after names := by
  obtain ⟨coherent, lines, printed_eq, leaves_open⟩ := tells
  exact ⟨turns.coherent coherent, lines, by rw [turns.printed_eq, printed_eq], leaves_open⟩

theorem ask (tells : Tells start world names) (request : Request) :
    Tells start (world.ask request) names :=
  tells.quiet (.ask request)

theorem enter (tells : Tells start world names) (name : String) :
    Tells start (world.print (entryLine name)) (name :: names) := by
  obtain ⟨coherent, lines, printed_eq, leaves_open⟩ := tells
  exact ⟨World.coherent_print coherent _, lines ++ [entryLine name],
    by simp [World.print, printed_eq], leaves_open.enter name⟩

theorem leave {name : String} (tells : Tells start world (name :: names)) (cost : Int) :
    Tells start (world.print (exitLine name cost)) names := by
  obtain ⟨coherent, lines, printed_eq, leaves_open⟩ := tells
  exact ⟨World.coherent_print coherent _, lines ++ [exitLine name cost],
    by simp [World.print, printed_eq], leaves_open.leave cost⟩

end Tells

/-! ## Where activations stand -/

/-- An activation of an instrumented method stands in the entry sequence, before what stands for an
original instruction, in an exit sequence, or behind it; the names are those of the method if its
entry line is out and its exit line is not. -/
inductive Stands (file : ClassFile) (before : Method) (plan : FramePlan) (world : World)
    (frame : Frame) : Nat → List String → Prop
  | entering {place : Nat} {earlier : World} {first : Frame} : place < 5 → earlier.Coherent →
      Performs file earlier first
        ((entryCode before.declaration.name plan.startSlot).take place) world frame →
      Stands file before plan world frame place
        (if place < 3 then [] else [before.declaration.name])
  | within {index : Nat} : index ≤ before.instructions.length →
      Stands file before plan world frame (offset before.instructions index)
        [before.declaration.name]
  | leaving {index place : Nat} {instruction : Instruction} {earlier : World} {first : Frame} :
      before.instructions[index]? = some instruction → instruction.isReturn →
      place < 16 → earlier.Coherent →
      Performs file earlier first
        ((exitCode before.declaration.name plan.startSlot plan.endSlot).take place) world frame →
      Stands file before plan world frame (offset before.instructions index + place)
        [before.declaration.name]
  | left {index : Nat} {instruction : Instruction} :
      before.instructions[index]? = some instruction → instruction.isReturn →
      Stands file before plan world frame (position before.instructions index) []

/-- What the activation that executes leaves open. -/
def Activation.Holds (file : ClassFile) (world : World) (activation : Activation)
    (names : List String) : Prop :=
  Quiet activation.body.method.instructions ∧ names = [] ∨
    ∃ before plan, Quiet before.instructions ∧
      Instrumented before activation.body.method plan ∧
      Stands file before plan world activation.frame activation.index names

/-- What an activation leaves open that waits behind a call. -/
def Activation.Waits (activation : Activation) (names : List String) : Prop :=
  Quiet activation.body.method.instructions ∧ names = [] ∨
    ∃ before plan index, Quiet before.instructions ∧
      Instrumented before activation.body.method plan ∧ index ≤ before.instructions.length ∧
      activation.index + 1 = offset before.instructions index ∧ names = [before.declaration.name]

/-- What waiting activations leave open, the innermost first. -/
def Wait : List Activation → List String → Prop
  | [], names => names = []
  | caller :: callers, names =>
      ∃ inner outer, names = inner ++ outer ∧ caller.Waits inner ∧ Wait callers outer

/-- The lines printed so far leave open what the activations of a state leave open. -/
def State.Nests (file : ClassFile) (start : List String) (state : State) : Prop :=
  ∃ inner outer, state.current.Holds file state.world inner ∧ Wait state.callers outer ∧
    Tells start state.world (inner ++ outer)

section Steps

variable {setup : Setup} {start : List String} {world : World} {callers : List Activation}
  {names outer : List String}

/-! ## Calls and returns -/

/-- A call leaves open what its caller does; its own entry line is still to come. -/
theorem activate_nests {method : Method} (discreet : method.Discreet) {arguments : List Value}
    (waits : Wait callers outer) (tells : Tells start world outer) :
    (activate setup world callers method arguments).Meets (State.Nests setup.file start)
      (Concludes start) := by
  unfold activate
  split
  · exact tells.concludes_error _
  · split
    · exact tells.concludes_error _
    · split
      · exact tells.concludes_error _
      · rename_i frame _
        refine ⟨[], outer, ?_, waits, tells⟩
        rcases discreet with quiet | ⟨before, plan, quiet, woven⟩
        · exact Or.inl ⟨quiet, rfl⟩
        · exact Or.inr ⟨before, plan, quiet, woven,
            .entering (show 0 < 5 by omega) tells.1 .nil⟩

/-- A return leaves open what the callers do. -/
theorem resume_nests {value : Option Value} (waits : Wait callers outer)
    (tells : Tells start world outer) :
    (resume world value callers).Meets (State.Nests setup.file start) (Concludes start) := by
  cases callers with
  | nil =>
      obtain rfl : outer = [] := waits
      exact ⟨⟨[], tells⟩, fun _ _ => tells⟩
  | cons caller callers =>
      obtain ⟨inner, further, rfl, caller_waits, waits⟩ := waits
      have goes_on (frame : Frame) :
          State.Nests setup.file start ⟨world, caller.advance frame, callers⟩ := by
        refine ⟨inner, further, ?_, waits, tells⟩
        rcases caller_waits with plain | ⟨before, plan, index, quiet, woven, in_range, next, rfl⟩
        · exact Or.inl plain
        · refine Or.inr ⟨before, plan, quiet, woven, ?_⟩
          simp only [Activation.advance]
          rw [next]
          exact .within in_range
      cases value with
      | none => exact goes_on caller.frame
      | some value =>
          simp only [resume]
          split
          · exact tells.concludes_error _
          · exact goes_on _

/-! ## Original instructions -/

/-- An instruction of a body that prints nothing itself, wherever it leads. -/
theorem step_own (discreet : ∀ method ∈ setup.file.methods, method.Discreet) {body : Body}
    {frame : Frame} {index : Nat} {instruction : Instruction} {inner : List String}
    (found : body.method.instructions[index]? = some instruction)
    (silent : instruction.isPrintln = false)
    (goes_on : instruction.endsBlock = false → ∀ world frame,
      Activation.Holds setup.file world ⟨body, frame, index + 1⟩ inner)
    (jumps : ∀ target place, instruction.branchTarget? = some target →
      body.place? target = some place → ∀ world frame,
        Activation.Holds setup.file world ⟨body, frame, place⟩ inner)
    (calls : instruction.endsBlock = false → ∀ frame,
      Activation.Waits ⟨body, frame, index⟩ inner)
    (leaves : instruction.isReturn → inner = [])
    (waits : Wait callers outer) (tells : Tells start world (inner ++ outer)) :
    (step setup ⟨world, ⟨body, frame, index⟩, callers⟩).Meets (State.Nests setup.file start)
      (Concludes start) := by
  have turns := perform_turns setup.file world frame instruction
  rw [silent] at turns
  have tells := tells.quiet turns
  have suits : ∀ transfer, (perform setup.file world frame instruction).2 = .ok transfer →
      transfer.Suits setup.file instruction := fun _ => suits_perform
  simp only [step, body.instruction?_eq, found]
  cases performed : perform setup.file world frame instruction with
  | mk after outcome =>
      rw [performed] at tells suits
      rcases outcome with (fault | reason) |
        (frame | ⟨frame, target⟩ | ⟨frame, callee, arguments⟩ | value)
      · exact tells.concludes_error _
      · exact tells.concludes_error _
      · exact ⟨inner, outer, goes_on (suits _ rfl) after frame, waits, tells⟩
      · cases placed : body.place? target with
        | none =>
            simp only [placed]
            exact tells.concludes_error _
        | some place =>
            simp only [placed]
            exact ⟨inner, outer, jumps target place (suits _ rfl) placed after frame, waits, tells⟩
      · obtain ⟨method, rfl, -, called⟩ := suits _ rfl
        exact activate_nests (discreet callee (List.mem_of_find?_eq_some called))
          ⟨inner, outer, rfl, calls rfl frame, waits⟩ tells
      · obtain rfl := leaves (suits _ rfl)
        exact resume_nests waits tells

/-- A step in a body that is not woven. -/
theorem step_quiet (discreet : ∀ method ∈ setup.file.methods, method.Discreet) {body : Body}
    {frame : Frame} {index : Nat} (quiet : Quiet body.method.instructions)
    (waits : Wait callers outer) (tells : Tells start world outer) :
    (step setup ⟨world, ⟨body, frame, index⟩, callers⟩).Meets (State.Nests setup.file start)
      (Concludes start) := by
  cases found : body.method.instructions[index]? with
  | none =>
      simp only [step, body.instruction?_eq, found]
      exact tells.concludes_error _
  | some instruction =>
      exact step_own discreet found (quiet instruction (List.mem_of_getElem? found))
        (fun _ _ _ => Or.inl ⟨quiet, rfl⟩) (fun _ _ _ _ _ _ => Or.inl ⟨quiet, rfl⟩)
        (fun _ _ => Or.inl ⟨quiet, rfl⟩) (fun _ => rfl) waits tells

section Woven

variable {body : Body} {frame : Frame} {before : Method} {plan : FramePlan}

/-- A step from what stands for an original instruction that is no return. -/
theorem step_within (discreet : ∀ method ∈ setup.file.methods, method.Discreet)
    (quiet : Quiet before.instructions) (woven : Instrumented before body.method plan) {index : Nat}
    {instruction : Instruction} (found : before.instructions[index]? = some instruction)
    (stays : instruction.isReturn = false) (waits : Wait callers outer)
    (tells : Tells start world ([before.declaration.name] ++ outer)) :
    (step setup ⟨world, ⟨body, frame, offset before.instructions index⟩, callers⟩).Meets
      (State.Nests setup.file start) (Concludes start) := by
  have index_lt := (List.getElem?_eq_some_iff.mp found).1
  have position_eq : position before.instructions index = offset before.instructions index := by
    rw [position_eq found, stays]
    rfl
  have next_eq : offset before.instructions index + 1 = offset before.instructions (index + 1) := by
    rw [offset_succ, position_eq]
  have body_found :
      body.method.instructions[offset before.instructions index]? = some instruction := by
    rw [woven.instructions, ← position_eq]
    exact getElem?_position found
  have labelled : Flow.WellLabelled body.method.instructions := by
    rw [woven.instructions]
    exact wellLabelled_traced woven.labelled
  refine step_own discreet body_found (quiet instruction (List.mem_of_getElem? found))
    (fun _ after frame => ?_) (fun target place branches placed after frame => ?_)
    (fun _ frame => ?_) (fun returns => ?_) waits tells
  · refine Or.inr ⟨before, plan, quiet, woven, ?_⟩
    simp only [next_eq]
    exact .within index_lt
  · rw [body.place?_eq_labelPosition? labelled.distinct, woven.instructions,
      labelPosition?_traced woven.labelled, Option.map_eq_some_iff] at placed
    obtain ⟨source, source_placed, rfl⟩ := placed
    have marked := (Flow.labelPosition?_eq_some_iff.mp source_placed).1
    exact Or.inr ⟨before, plan, quiet, woven,
      .within (Nat.le_of_lt (List.getElem?_eq_some_iff.mp marked).1)⟩
  · exact Or.inr ⟨before, plan, index + 1, quiet, woven, index_lt, next_eq, rfl⟩
  · simp [stays] at returns

/-- There is no step behind the last instruction. -/
theorem step_beyond (woven : Instrumented before body.method plan)
    (tells : Tells start world names) :
    (step setup ⟨world, ⟨body, frame, offset before.instructions before.instructions.length⟩,
      callers⟩).Meets (State.Nests setup.file start) (Concludes start) := by
  simp only [step, body.instruction?_eq, woven.instructions, getElem?_offset_length]
  exact tells.concludes_error _

/-- A step from a return behind its exit sequence. -/
theorem step_left (discreet : ∀ method ∈ setup.file.methods, method.Discreet)
    (quiet : Quiet before.instructions) (woven : Instrumented before body.method plan) {index : Nat}
    {instruction : Instruction} (found : before.instructions[index]? = some instruction)
    (returns : instruction.isReturn) (waits : Wait callers outer)
    (tells : Tells start world outer) :
    (step setup ⟨world, ⟨body, frame, position before.instructions index⟩, callers⟩).Meets
      (State.Nests setup.file start) (Concludes start) := by
  have body_found :
      body.method.instructions[position before.instructions index]? = some instruction := by
    rw [woven.instructions]
    exact getElem?_position found
  have ends := Instruction.endsBlock_of_isReturn returns
  refine step_own discreet body_found (quiet instruction (List.mem_of_getElem? found))
    (fun goes_on => ?_) (fun target place branches => ?_) (fun goes_on => ?_) (fun _ => rfl) waits
    tells
  · simp [ends] at goes_on
  · cases instruction <;> simp_all [Instruction.isReturn, Instruction.branchTarget?]
  · simp [ends] at goes_on

/-! ## Injected instructions -/

/-- Instructions of the injected sequences go on or fail. -/
theorem next_of_injected {name : String} {startSlot endSlot : UInt16} {instruction : Instruction}
    (member : instruction ∈ entryCode name startSlot ++ exitCode name startSlot endSlot)
    {transfer : Transfer}
    (transferred : (perform setup.file world frame instruction).2 = .ok transfer) :
    ∃ next, transfer = .next next := by
  refine next_of_perform ?_ ?_ ?_ transferred
  · rcases List.mem_append.mp member with in_entry | in_exit
    · exact Instruction.branchTarget?_of_not_breaks (entryCode_unbroken _ in_entry)
    · exact Instruction.branchTarget?_of_not_breaks (exitCode_unbroken _ in_exit)
  · clear transferred
    revert instruction
    simp [entryCode, exitCode, Instruction.isReturn]
  · rintro method rfl
    simp [entryCode, exitCode] at member
    subst member
    rfl

/-- A step inside an injected sequence. -/
theorem step_injected {name : String} {startSlot endSlot : UInt16} {instruction : Instruction}
    {index : Nat} (found : body.method.instructions[index]? = some instruction)
    (member : instruction ∈ entryCode name startSlot ++ exitCode name startSlot endSlot)
    (fails : ∀ after trap, perform setup.file world frame instruction = (after, .error trap) →
      ∃ names, Tells start after names)
    (goes_on : ∀ after next,
      perform setup.file world frame instruction = (after, .ok (.next next)) →
      ∃ inner, Activation.Holds setup.file after ⟨body, next, index + 1⟩ inner ∧
        Tells start after (inner ++ outer))
    (waits : Wait callers outer) :
    (step setup ⟨world, ⟨body, frame, index⟩, callers⟩).Meets (State.Nests setup.file start)
      (Concludes start) := by
  have next_only : ∀ transfer, (perform setup.file world frame instruction).2 = .ok transfer →
      ∃ next, transfer = .next next := fun _ => next_of_injected member
  simp only [step, body.instruction?_eq, found]
  cases performed : perform setup.file world frame instruction with
  | mk after outcome =>
      rw [performed] at next_only
      rcases outcome with (fault | reason) | transfer
      · obtain ⟨names, tells⟩ := fails after _ performed
        exact tells.concludes_error _
      · obtain ⟨names, tells⟩ := fails after _ performed
        exact tells.concludes_error _
      · obtain ⟨next, rfl⟩ := next_only transfer rfl
        obtain ⟨inner, holds, tells⟩ := goes_on after next performed
        exact ⟨inner, outer, holds, waits, tells⟩

/-- The printing instruction of the entry sequence prints the entry line or nothing. -/
theorem println_of_entry {earlier : World} {first : Frame} {name : String} {startSlot : UInt16}
    (coherent : earlier.Coherent)
    (performs : Performs setup.file earlier first ((entryCode name startSlot).take 2) world frame) :
    (∃ request trap, perform setup.file world frame (.invoke .virtual println) =
      (world.ask request, .error trap)) ∨
      ∃ next, perform setup.file world frame (.invoke .virtual println) =
        (world.print (entryLine name), .ok (.next next)) := by
  obtain ⟨later, text, console, ready, greeting_iff⟩ :=
    performs_greeting setup.file first (entryLine name) coherent
  obtain ⟨-, rfl, rfl⟩ := (greeting_iff world frame).mp performs
  rw [Frame.present, perform_println ready.is_text ready.is_console]
  cases world.sink.refusal? (.line (entryLine name)) with
  | none => exact Or.inr ⟨_, rfl⟩
  | some reason => exact Or.inl ⟨_, _, rfl⟩

/-- The printing instruction of an exit sequence prints an exit line or nothing. -/
theorem println_of_exit {earlier : World} {first : Frame} {name : String}
    {startSlot endSlot : UInt16} (coherent : earlier.Coherent)
    (performs : Performs setup.file earlier first ((exitCode name startSlot endSlot).take 15) world
      frame) :
    (∃ request trap, perform setup.file world frame (.invoke .virtual println) =
      (world.ask request, .error trap)) ∨
      ∃ next cost, perform setup.file world frame (.invoke .virtual println) =
        (world.print (exitLine name cost), .ok (.next next)) := by
  have split : (exitCode name startSlot endSlot).take 15 =
      [.invoke .direct currentTimeMillis, .load .long startSlot, .longArithmetic .sub] ++
        [.store .long endSlot] ++ lineCode name endSlot := rfl
  rw [split] at performs
  obtain ⟨composing, middle, timed, line⟩ := performs_append_iff.mp performs
  have composing_coherent := timed.coherent coherent
  obtain ⟨_, _, _, stored⟩ := performs_append_iff.mp timed
  obtain ⟨inside, cost, held⟩ := held_of_performs_store stored
  obtain ⟨later, text, console, ready, line_iff⟩ :=
    performs_line setup.file middle name composing_coherent inside held
  obtain ⟨-, rfl, rfl⟩ := (line_iff world frame).mp line
  rw [Frame.present, perform_println ready.is_text ready.is_console]
  cases world.sink.refusal? (.line (exitLine name cost.toInt)) with
  | none => exact Or.inr ⟨_, cost.toInt, rfl⟩
  | some reason => exact Or.inl ⟨_, _, rfl⟩

theorem quiet_entry {name : String} {startSlot : UInt16} {place : Nat} {instruction : Instruction}
    (found : (entryCode name startSlot)[place]? = some instruction) (not_println : place ≠ 2) :
    instruction.isPrintln = false := by
  have in_range := (List.getElem?_eq_some_iff.mp found).1
  simp only [length_entryCode] at in_range
  have places : place = 0 ∨ place = 1 ∨ place = 3 ∨ place = 4 := by omega
  rcases places with rfl | rfl | rfl | rfl <;>
    · obtain rfl := Option.some.inj found
      rfl

theorem quiet_exit {name : String} {startSlot endSlot : UInt16} {place : Nat}
    {instruction : Instruction}
    (found : (exitCode name startSlot endSlot)[place]? = some instruction)
    (before_last : place < 15) :
    instruction.isPrintln = false := by
  have silent : ∀ instruction ∈ (exitCode name startSlot endSlot).take 15,
      instruction.isPrintln = false := by
    simp [exitCode, Instruction.isPrintln, builderAppend, builderText, stringBuilderClass,
      printStreamClass]
  refine silent instruction (List.mem_of_getElem? (i := place) ?_)
  rw [List.getElem?_take_of_lt before_last]
  exact found

theorem take_succ_eq {code : List Instruction} {place : Nat} {instruction : Instruction}
    (found : code[place]? = some instruction) :
    code.take (place + 1) = code.take place ++ [instruction] := by
  rw [List.take_add_one, found]
  rfl

/-- A step in the entry sequence. -/
theorem step_entering (quiet : Quiet before.instructions)
    (woven : Instrumented before body.method plan) {place : Nat} {earlier : World} {first : Frame}
    (in_entry : place < 5) (coherent : earlier.Coherent)
    (performs : Performs setup.file earlier first
      ((entryCode before.declaration.name plan.startSlot).take place) world frame)
    (waits : Wait callers outer)
    (tells : Tells start world
      ((if place < 3 then [] else [before.declaration.name]) ++ outer)) :
    (step setup ⟨world, ⟨body, frame, place⟩, callers⟩).Meets (State.Nests setup.file start)
      (Concludes start) := by
  obtain ⟨instruction, found⟩ : ∃ instruction,
      (entryCode before.declaration.name plan.startSlot)[place]? = some instruction :=
    ⟨_, List.getElem?_eq_getElem (by simpa using in_entry)⟩
  have body_found : body.method.instructions[place]? = some instruction := by
    rw [woven.instructions, getElem?_entry in_entry, found]
  -- The names change with the printing instruction only, which stands third.
  have told : ∀ after outcome, perform setup.file world frame instruction = (after, outcome) →
      (∃ names, Tells start after names) ∧ ∀ next, outcome = .ok (.next next) → Tells start after
        ((if place + 1 < 3 then [] else [before.declaration.name]) ++ outer) := by
    intro after outcome performed
    by_cases printing : place = 2
    · subst printing
      obtain rfl : _ = instruction := Option.some.inj found
      rcases println_of_entry coherent performs with ⟨_, trap, failed⟩ | ⟨next, printed⟩
      · obtain ⟨rfl, rfl⟩ := Prod.mk.inj (failed.symm.trans performed)
        exact ⟨⟨_, tells.ask _⟩, by simp⟩
      · obtain ⟨rfl, rfl⟩ := Prod.mk.inj (printed.symm.trans performed)
        exact ⟨⟨_, tells.enter _⟩, fun _ _ => tells.enter _⟩
    · have turns := perform_turns setup.file world frame instruction
      rw [quiet_entry found printing, performed] at turns
      have same : (if place + 1 < 3 then [] else [before.declaration.name]) =
          if place < 3 then [] else [before.declaration.name] := by
        by_cases early : place < 2
        · rw [if_pos (by omega), if_pos (by omega)]
        · rw [if_neg (by omega), if_neg (by omega)]
      rw [same]
      exact ⟨⟨_, tells.quiet turns⟩, fun _ _ => tells.quiet turns⟩
  refine step_injected body_found
    (List.mem_append_left (exitCode _ _ plan.endSlot) (List.mem_of_getElem? found))
    (fun after trap performed => (told after _ performed).1)
    (fun after next performed => ⟨_, ?_, (told after _ performed).2 next rfl⟩) waits
  refine Or.inr ⟨before, plan, quiet, woven, ?_⟩
  have further : Performs setup.file earlier first
      ((entryCode before.declaration.name plan.startSlot).take (place + 1)) after next := by
    rw [take_succ_eq found]
    exact performs_append_iff.mpr ⟨_, _, performs, .cons performed .nil⟩
  by_cases last : place = 4
  · subst last
    exact .within (Nat.zero_le before.instructions.length)
  · exact .entering (show place + 1 < 5 by omega) coherent further

/-- A step in an exit sequence. -/
theorem step_leaving (quiet : Quiet before.instructions)
    (woven : Instrumented before body.method plan) {index place : Nat} {returning : Instruction}
    {earlier : World} {first : Frame} (return_at : before.instructions[index]? = some returning)
    (returns : returning.isReturn) (in_exit : place < 16) (coherent : earlier.Coherent)
    (performs : Performs setup.file earlier first
      ((exitCode before.declaration.name plan.startSlot plan.endSlot).take place) world frame)
    (waits : Wait callers outer)
    (tells : Tells start world ([before.declaration.name] ++ outer)) :
    (step setup ⟨world, ⟨body, frame, offset before.instructions index + place⟩, callers⟩).Meets
      (State.Nests setup.file start) (Concludes start) := by
  obtain ⟨instruction, found⟩ : ∃ instruction,
      (exitCode before.declaration.name plan.startSlot plan.endSlot)[place]? = some instruction :=
    ⟨_, List.getElem?_eq_getElem (by simpa using in_exit)⟩
  have body_found :
      body.method.instructions[offset before.instructions index + place]? = some instruction := by
    rw [woven.instructions, getElem?_exit return_at returns in_exit, found]
  by_cases last : place = 15
  · subst last
    obtain rfl : _ = instruction := Option.some.inj found
    have position_eq : position before.instructions index =
        offset before.instructions index + 15 + 1 := by
      rw [position_eq return_at, if_pos returns]
    have printed := println_of_exit coherent performs
    refine step_injected body_found (List.mem_append_right _ (List.mem_of_getElem? found))
      (fun after trap performed => ?_) (fun after next performed => ⟨[], ?_, ?_⟩) waits
    · rcases printed with ⟨_, trap, failed⟩ | ⟨next, cost, printed⟩
      · obtain ⟨rfl, -⟩ := Prod.mk.inj (failed.symm.trans performed)
        exact ⟨_, tells.ask _⟩
      · simp [printed] at performed
    · refine Or.inr ⟨before, plan, quiet, woven, ?_⟩
      simp only [← position_eq]
      exact .left return_at returns
    · rcases printed with ⟨_, trap, failed⟩ | ⟨next, cost, printed⟩
      · simp [failed] at performed
      · obtain ⟨rfl, -⟩ := Prod.mk.inj (printed.symm.trans performed)
        exact tells.leave cost
  · have told : ∀ after outcome, perform setup.file world frame instruction = (after, outcome) →
        Tells start after ([before.declaration.name] ++ outer) := by
      intro after outcome performed
      have turns := perform_turns setup.file world frame instruction
      rw [quiet_exit found (by omega), performed] at turns
      exact tells.quiet turns
    refine step_injected body_found (List.mem_append_right _ (List.mem_of_getElem? found))
      (fun after trap performed => ⟨_, told after _ performed⟩)
      (fun after next performed => ⟨_, ?_, told after _ performed⟩) waits
    refine Or.inr ⟨before, plan, quiet, woven, ?_⟩
    have further : Performs setup.file earlier first
        ((exitCode before.declaration.name plan.startSlot plan.endSlot).take (place + 1)) after
          next := by
      rw [take_succ_eq found]
      exact performs_append_iff.mpr ⟨_, _, performs, .cons performed .nil⟩
    exact .leaving return_at returns (show place + 1 < 16 by omega) coherent further

end Woven

/-- Every step keeps the lines nested. -/
theorem step_nests (discreet : ∀ method ∈ setup.file.methods, method.Discreet) {state : State}
    (nests : state.Nests setup.file start) :
    (step setup state).Meets (State.Nests setup.file start) (Concludes start) := by
  obtain ⟨world, ⟨body, frame, index⟩, callers⟩ := state
  obtain ⟨inner, outer, ⟨quiet, rfl⟩ | ⟨before, plan, quiet, woven, stands⟩, waits, tells⟩ := nests
  · exact step_quiet discreet quiet waits tells
  · cases stands with
    | entering in_entry coherent performs =>
        exact step_entering quiet woven in_entry coherent performs waits tells
    | leaving return_at returns in_exit coherent performs =>
        exact step_leaving quiet woven return_at returns in_exit coherent performs waits tells
    | left return_at returns => exact step_left discreet quiet woven return_at returns waits tells
    | @within index in_range =>
        cases found : before.instructions[index]? with
        | none =>
            have at_end : index = before.instructions.length :=
              Nat.le_antisymm in_range (List.getElem?_eq_none_iff.mp found)
            subst at_end
            exact step_beyond woven tells
        | some instruction =>
            by_cases returns : instruction.isReturn
            · exact step_leaving quiet woven found returns (show 0 < 16 by omega) tells.1 .nil
                waits tells
            · exact step_within discreet quiet woven found (by simpa using returns) waits tells

end Steps

namespace Session

theorem begin_nests {session : Session}
    (discreet : ∀ method ∈ session.setup.file.methods, method.Discreet)
    (coherent : session.world.Coherent) {name : String} {arguments : List Value}
    {progress : Progress} (begun : session.begin name arguments = some progress) :
    progress.Meets (State.Nests session.setup.file session.world.printed.toList)
      (Concludes session.world.printed.toList) := by
  obtain ⟨method, found, cases_of_static⟩ := begin_cases begun
  have method_discreet := discreet method (List.mem_of_find?_eq_some found)
  rcases cases_of_static with ⟨-, rfl⟩ | ⟨-, rfl⟩
  · exact activate_nests method_discreet (show Wait [] [] from rfl)
      ⟨coherent, [], by simp, .closed .nil⟩
  · exact activate_nests method_discreet (show Wait [] [] from rfl)
      ⟨World.coherent_allocate coherent _, [], by simp [World.allocate], .closed .nil⟩

/-- Whatever a woven class does and however the call ends, the lines that the call prints are the
beginning of lines that nest; if the call ends well they nest themselves. -/
theorem invoke_nested {pipeline : Pipeline} {file woven : ClassFile} {report : Report}
    (ran : pipeline.weave file = .ok (woven, report))
    (quiet : ∀ method ∈ file.methods, Quiet method.instructions) {session : Session}
    (arises : session.Arises woven) (name : String) (arguments : List Value) :
    ∃ lines, (session.invoke name arguments).1.world.printed.toList =
        session.world.printed.toList ++ lines ∧
      (∃ rest, Nested (lines ++ rest)) ∧
      ∀ value, (session.invoke name arguments).2 = .ok value → Nested lines := by
  have discreet : ∀ method ∈ woven.methods, method.Discreet := by
    intro after member
    obtain ⟨before, before_member, weaves⟩ :=
      Pipeline.Weaves.exists_before (Pipeline.weave_ok ran).2 member
    unfold Pipeline.Weaves at weaves
    split at weaves
    · obtain ⟨plan, instrumented⟩ := weaves
      exact Or.inr ⟨before, plan, quiet before before_member, instrumented⟩
    · exact Or.inl (weaves ▸ quiet before before_member)
  rw [← arises.file_eq] at discreet
  cases begun : session.begin name arguments with
  | none =>
      rw [invoke, begun]
      exact ⟨[], by simp, ⟨[], .nil⟩, by simp⟩
  | some progress =>
      rw [invoke_of_begin begun]
      have runs_out : ∀ state, State.Nests session.setup.file session.world.printed.toList state →
          Concludes session.world.printed.toList state.world (.error (exhausted state)) := by
        rintro state ⟨inner, outer, -, -, tells⟩
        exact tells.concludes_error _
      obtain ⟨⟨names, -, lines, printed_eq, leaves_open⟩, complete⟩ :=
        run_meets (fun _ => step_nests discreet) runs_out session.fuel
          (begin_nests discreet arises.coherent begun)
      refine ⟨lines, printed_eq, leaves_open.exists_nested, fun value settled => ?_⟩
      simp only [settle] at settled
      split at settled
      · simp at settled
      · obtain ⟨-, lines', printed_eq', closed⟩ := complete value settled
        rw [printed_eq, List.append_cancel_left_eq] at printed_eq'
        exact printed_eq' ▸ closed.nested

/-- A marked method that calls itself through another marked one and may throw. -/
def mutualFile : ClassFile :=
  { name := "Mutual"
    methods :=
      [{ declaration :=
          { owner := "Mutual", name := "even", type := some ⟨[.int], none⟩, access := ⟨0x0008⟩
            kind := .function, annotations := ⟨["Timed"]⟩ }
         instructions :=
          [.label ⟨0⟩, .load .int 0, .branchZero .gt ⟨1⟩, .ret none, .label ⟨1⟩, .load .int 0,
            .iconst (-1), .intArithmetic .add, .invoke .direct ⟨"Mutual", "odd", ⟨[.int], none⟩⟩,
            .iinc 0 (-2), .goto ⟨0⟩]
         maxStack := 2
         maxLocals := 1 },
        { declaration :=
          { owner := "Mutual", name := "odd", type := some ⟨[.int], none⟩, access := ⟨0x0008⟩
            kind := .function, annotations := ⟨["Timed"]⟩ }
          instructions :=
          [.load .int 0, .branchZero .gt ⟨0⟩, .new "Failure", .athrow, .label ⟨0⟩, .load .int 0,
            .iconst (-1), .intArithmetic .add, .invoke .direct ⟨"Mutual", "even", ⟨[.int], none⟩⟩,
            .ret none]
          maxStack := 2
          maxLocals := 1 }] }

/-- The lines of a call with the argument 4 and a clock that moves on by three. -/
def mutualLines : List String :=
  [entryLine "even", entryLine "odd", entryLine "even", entryLine "odd", entryLine "even",
    exitLine "even" 3, exitLine "odd" 9, exitLine "even" 15, exitLine "odd" 21, entryLine "odd",
    entryLine "even", exitLine "even" 3, exitLine "odd" 9, exitLine "even" 39]

theorem invoke_nested_mutualFile :
    ∃ woven report, Pipeline.timed.weave mutualFile = .ok (woven, report) ∧
      (∀ method ∈ mutualFile.methods, Quiet method.instructions) ∧
      (start woven (.steady 0 3) .reliable).Arises woven ∧
      ((start woven (.steady 0 3) .reliable).invoke "even" [.int 4]).2 = .ok none ∧
      ((start woven (.steady 0 3) .reliable).invoke "even" [.int 4]).1.world.printed.toList =
        mutualLines ∧
      Nested mutualLines := by
  have quiet : ∀ method ∈ mutualFile.methods, Quiet method.instructions := by
    simp [mutualFile, Quiet, Instruction.isPrintln]
  have called : (Pipeline.timed.weave mutualFile).map (fun answer =>
      (start answer.1 (.steady 0 3) .reliable).plainCall "even" [.int 4]) =
        .ok (.ok none, mutualLines) := by decide +kernel
  cases ran : Pipeline.timed.weave mutualFile with
  | error cause => simp [ran, Except.map] at called
  | ok answer =>
      obtain ⟨woven, report⟩ := answer
      have arises : (start woven (.steady 0 3) .reliable).Arises woven := .start _ _ _ _
      simp only [ran, Except.map, Except.ok.injEq, plainCall_eq, Prod.mk.injEq] at called
      obtain ⟨outcome, printed⟩ := called
      obtain ⟨lines, printed_eq, -, complete⟩ := invoke_nested ran quiet arises "even" [.int 4]
      obtain rfl : mutualLines = lines := printed.symm.trans printed_eq
      exact ⟨woven, report, rfl, quiet, arises, outcome, printed, complete none outcome⟩

end Session
end Machine
end MethodTracing
