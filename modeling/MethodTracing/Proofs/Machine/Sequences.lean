import MethodTracing.Proofs.Machine.Worlds

/-!
# Injected sequences at work

What the entry and the exit sequence do when they run through: both leave the operand stack as they
find it, and in a coherent world they print the lines that they are meant to print.
-/

namespace MethodTracing

/-- The line printed on exit after a time. -/
def Trace.exitLine (name : String) (cost : Int) : String :=
  exitLineHead name ++ Text.decimal cost ++ exitLineTail

namespace Machine

/-- A run of instructions is carried out one after another, none of them leaving the run. -/
inductive Performs (file : ClassFile) : World → Frame → List Instruction → World → Frame → Prop
  | nil {world : World} {frame : Frame} : Performs file world frame [] world frame
  | cons {world between after : World} {frame middle last : Frame} {instruction : Instruction}
      {rest : List Instruction} :
      perform file world frame instruction = (between, .ok (.next middle)) →
      Performs file between middle rest after last →
        Performs file world frame (instruction :: rest) after last

section Performs

variable {file : ClassFile} {world after : World} {frame last : Frame}

theorem performs_nil_iff :
    Performs file world frame [] after last ↔ after = world ∧ last = frame := by
  constructor
  · rintro ⟨⟩
    exact ⟨rfl, rfl⟩
  · rintro ⟨rfl, rfl⟩
    exact .nil

theorem performs_cons_iff {instruction : Instruction} {rest : List Instruction} :
    Performs file world frame (instruction :: rest) after last ↔
      ∃ between middle, perform file world frame instruction = (between, .ok (.next middle)) ∧
        Performs file between middle rest after last := by
  constructor
  · rintro (_ | ⟨first, later⟩)
    exact ⟨_, _, first, later⟩
  · rintro ⟨between, middle, first, later⟩
    exact .cons first later

theorem performs_append_iff {left right : List Instruction} :
    Performs file world frame (left ++ right) after last ↔
      ∃ between middle, Performs file world frame left between middle ∧
        Performs file between middle right after last := by
  induction left generalizing world frame with
  | nil => simp [performs_nil_iff]
  | cons first rest ih =>
      simp only [List.cons_append, performs_cons_iff, ih]
      constructor
      · rintro ⟨between, middle, first, third, next, second, later⟩
        exact ⟨third, next, ⟨between, middle, first, second⟩, later⟩
      · rintro ⟨third, next, ⟨between, middle, first, second⟩, later⟩
        exact ⟨between, middle, first, third, next, second, later⟩

theorem Performs.coherent {code : List Instruction}
    (performs : Performs file world frame code after last) (coherent : world.Coherent) :
    after.Coherent := by
  induction performs with
  | nil => exact coherent
  | @cons world between _ frame _ _ instruction _ first _ ih =>
      apply ih
      have turns := perform_turns file world frame instruction
      rw [first] at turns
      exact turns.coherent coherent

end Performs

/-! ## Times in locals -/

/-- Locals with a time stored from a slot on. -/
def keepTime (locals : Array Value) (slot : Nat) (time : Int64) : Array Value :=
  (locals.setIfInBounds slot (.long time)).setIfInBounds (slot + 1) .top

@[simp]
theorem size_keepTime (locals : Array Value) (slot : Nat) (time : Int64) :
    (keepTime locals slot time).size = locals.size := by
  simp [keepTime]

theorem getD_keepTime {locals : Array Value} {slot : Nat} {time : Int64}
    (inside : slot < locals.size) : (keepTime locals slot time).getD slot .top = .long time := by
  simp [keepTime, Array.getD_eq_getD_getElem?, inside]

theorem getD_keepTime_of_ne {locals : Array Value} {slot other : Nat} {time : Int64}
    (not_first : other ≠ slot) (not_second : other ≠ slot + 1) :
    (keepTime locals slot time).getD other .top = locals.getD other .top := by
  simp only [keepTime, Array.getD_eq_getD_getElem?]
  rw [Array.getElem?_setIfInBounds_ne not_second.symm,
    Array.getElem?_setIfInBounds_ne not_first.symm]

/-! ## Single instructions of the sequences -/

section Steps

variable {file : ClassFile} {world after : World} {stack : List Value} {depth maxStack : UInt16}
  {locals : Array Value} {rest : List Instruction} {last : Frame}

theorem popLong_cons (value : Int64) :
    Frame.popLong ⟨.long value :: stack, depth + 2, maxStack, locals⟩ =
      .ok (value, ⟨stack, depth, maxStack, locals⟩) := by
  simp [Frame.popLong, Frame.pop, Value.width]

theorem popReference_cons (object : ObjectId) :
    Frame.popReference ⟨.reference object :: stack, depth + 1, maxStack, locals⟩ =
      .ok (object, ⟨stack, depth, maxStack, locals⟩) := by
  simp [Frame.popReference, Frame.pop, Value.width]

/-- An instruction that ends with a push goes on if there is room. -/
theorem performs_push {between : World} {frame : Frame} (value : Value) {instruction : Instruction}
    (performed : perform file world frame instruction =
      (between, proceed (Frame.push ⟨stack, depth, maxStack, locals⟩ value))) :
    Performs file world frame (instruction :: rest) after last ↔
      depth + .ofNat value.width ≤ maxStack ∧
        Performs file between ⟨value :: stack, depth + .ofNat value.width, maxStack, locals⟩ rest
          after last := by
  rw [performs_cons_iff, performed]
  by_cases room : depth + .ofNat value.width ≤ maxStack
  · simp [Frame.push, UInt16.not_lt.mpr room, proceed, room]
  · simp [Frame.push, UInt16.not_le.mp room, proceed, room]

/-- An instruction that certainly goes on. -/
theorem performs_next {between : World} {frame middle : Frame} {instruction : Instruction}
    (performed : perform file world frame instruction = (between, .ok (.next middle))) :
    Performs file world frame (instruction :: rest) after last ↔
      Performs file between middle rest after last := by
  rw [performs_cons_iff, performed]
  simp

theorem performs_console :
    Performs file world ⟨stack, depth, maxStack, locals⟩ (.getStatic Trace.console :: rest) after
        last ↔
      depth + 1 ≤ maxStack ∧ Performs file world.theConsole.1
        ⟨.reference world.theConsole.2 :: stack, depth + 1, maxStack, locals⟩ rest after last :=
  performs_push (.reference world.theConsole.2) rfl

theorem performs_ldc {content : String} :
    Performs file world ⟨stack, depth, maxStack, locals⟩ (.ldc content :: rest) after last ↔
      depth + 1 ≤ maxStack ∧ Performs file (world.constant content).1
        ⟨.reference (world.constant content).2 :: stack, depth + 1, maxStack, locals⟩ rest after
          last :=
  performs_push (.reference (world.constant content).2) rfl

theorem performs_builder :
    Performs file world ⟨stack, depth, maxStack, locals⟩ (.new Trace.stringBuilderClass :: rest)
        after last ↔
      depth + 1 ≤ maxStack ∧ Performs file (world.allocate (.builder "")).1
        ⟨.reference (world.allocate (.builder "")).2 :: stack, depth + 1, maxStack, locals⟩ rest
          after last :=
  performs_push (.reference (world.allocate (.builder "")).2) (by simp [perform])

theorem performs_clock :
    Performs file world ⟨stack, depth, maxStack, locals⟩
        (.invoke .direct Trace.currentTimeMillis :: rest) after last ↔
      depth + 2 ≤ maxStack ∧ Performs file world.readClock.1
        ⟨.long world.clock.now :: stack, depth + 2, maxStack, locals⟩ rest after last :=
  performs_push (.long world.clock.now) rfl

theorem performs_load {slot : UInt16} {value : Int64} (inside : slot.toNat + 2 ≤ locals.size)
    (held : locals.getD slot.toNat .top = .long value) :
    Performs file world ⟨stack, depth, maxStack, locals⟩ (.load .long slot :: rest) after last ↔
      depth + 2 ≤ maxStack ∧ Performs file world
        ⟨.long value :: stack, depth + 2, maxStack, locals⟩ rest after last := by
  apply performs_push (.long value)
  have loaded :
      Frame.load ⟨stack, depth, maxStack, locals⟩ slot.toNat .long = .ok (.long value) := by
    simp only [Frame.load, Frame.holds, ValueKind.width, inside, decide_true, if_true, held]
  simp only [perform, loaded]
  rfl

theorem performs_store {slot : UInt16} {value : Int64} (inside : slot.toNat + 2 ≤ locals.size) :
    Performs file world ⟨.long value :: stack, depth + 2, maxStack, locals⟩
        (.store .long slot :: rest) after last ↔
      Performs file world ⟨stack, depth, maxStack, keepTime locals slot.toNat value⟩ rest after
        last := by
  apply performs_next
  simp [perform, Frame.popKind, popLong_cons, Except.map, Value.width, Frame.store, Frame.holds,
    inside, proceed, bind, Except.bind, keepTime]

theorem performs_sub {left right : Int64} :
    Performs file world ⟨.long right :: .long left :: stack, depth + 2 + 2, maxStack, locals⟩
        (.longArithmetic .sub :: rest) after last ↔
      depth + 2 ≤ maxStack ∧ Performs file world
        ⟨.long (left - right) :: stack, depth + 2, maxStack, locals⟩ rest after last := by
  apply performs_push (.long (left - right))
  simp [perform, popLong_cons, longResult, bind, Except.bind]

theorem performs_dup {object : ObjectId} :
    Performs file world ⟨.reference object :: stack, depth + 1, maxStack, locals⟩ (.dup :: rest)
        after last ↔
      depth + 1 ≤ maxStack ∧ depth + 1 + 1 ≤ maxStack ∧ Performs file world
        ⟨.reference object :: .reference object :: stack, depth + 1 + 1, maxStack, locals⟩ rest
          after last := by
  have performed :
      perform file world ⟨.reference object :: stack, depth + 1, maxStack, locals⟩ .dup =
        (world, proceed (Frame.push ⟨stack, depth, maxStack, locals⟩ (.reference object) >>=
          fun frame => frame.push (.reference object))) := by
    simp [perform, Frame.popNarrow, Frame.pop, Value.width, bind, Except.bind]
  by_cases room : depth + 1 ≤ maxStack
  · have pushed : Frame.push ⟨stack, depth, maxStack, locals⟩ (.reference object) =
        .ok ⟨.reference object :: stack, depth + 1, maxStack, locals⟩ := by
      simp [Frame.push, Value.width, UInt16.not_lt.mpr room]
    rw [pushed] at performed
    rw [and_iff_right room]
    exact performs_push (.reference object) performed
  · have overflown : Frame.push ⟨stack, depth, maxStack, locals⟩ (.reference object) =
        .error (.stackOverflow maxStack.toNat) := by
      simp [Frame.push, Value.width, UInt16.not_le.mp room]
    rw [overflown] at performed
    rw [performs_cons_iff, performed]
    simp [bind, Except.bind, proceed, room]

theorem performs_init {object : ObjectId} :
    Performs file world ⟨.reference object :: stack, depth + 1, maxStack, locals⟩
        (.invoke .special Trace.builderInit :: rest) after last ↔
      Performs file world ⟨stack, depth, maxStack, locals⟩ rest after last :=
  performs_next (by simp [perform, Trace.builderInit, Frame.popArguments, Frame.popReversed, invoke,
    popReference_cons])

/-- Appending to a builder extends it and leaves it on the stack. -/
theorem perform_append {type : FieldType} {argument : Value} {object : ObjectId} {frame : Frame}
    {content more : String}
    (popped : frame.popArguments [type] =
      .ok ([argument], ⟨.reference object :: stack, depth + 1, maxStack, locals⟩))
    (rendered : world.render argument = .ok more)
    (built : world.object? object = some (.builder content)) :
    perform file world frame (.invoke .virtual (Trace.builderAppend type)) =
      (world.extend object more,
        proceed (Frame.push ⟨stack, depth, maxStack, locals⟩ (.reference object))) := by
  have is_builder : world.isBuilder object = true := by simp [World.isBuilder, built]
  simp [perform, Trace.builderAppend, popped, invoke, popReference_cons, callOn,
    Trace.stringBuilderClass, Trace.printStreamClass, rendered, is_builder, pushResult]

theorem popArguments_text {object : ObjectId} (className : String) :
    Frame.popArguments ⟨.reference object :: stack, depth + 1, maxStack, locals⟩
        [.object className] =
      .ok ([.reference object], ⟨stack, depth, maxStack, locals⟩) := by
  simp [Frame.popArguments, Frame.popReversed, Frame.popArgument, Frame.popKind, popReference_cons,
    Except.map]

theorem popArguments_time {value : Int64} :
    Frame.popArguments ⟨.long value :: stack, depth + 2, maxStack, locals⟩ [.long] =
      .ok ([.long value], ⟨stack, depth, maxStack, locals⟩) := by
  simp [Frame.popArguments, Frame.popReversed, Frame.popArgument, Frame.popKind, popLong_cons,
    Except.map]

theorem performs_append_text {object text : ObjectId} {className content more : String}
    (rendered : world.render (.reference text) = .ok more)
    (built : world.object? object = some (.builder content)) :
    Performs file world
        ⟨.reference text :: .reference object :: stack, depth + 1 + 1, maxStack, locals⟩
        (.invoke .virtual (Trace.builderAppend (.object className)) :: rest) after last ↔
      depth + 1 ≤ maxStack ∧ Performs file (world.extend object more)
        ⟨.reference object :: stack, depth + 1, maxStack, locals⟩ rest after last :=
  performs_push (.reference object) (perform_append (popArguments_text className) rendered built)

theorem performs_append_time {object : ObjectId} {value : Int64} {content : String}
    (built : world.object? object = some (.builder content)) :
    Performs file world
        ⟨.long value :: .reference object :: stack, depth + 1 + 2, maxStack, locals⟩
        (.invoke .virtual (Trace.builderAppend .long) :: rest) after last ↔
      depth + 1 ≤ maxStack ∧ Performs file (world.extend object (Text.decimal value.toInt))
        ⟨.reference object :: stack, depth + 1, maxStack, locals⟩ rest after last :=
  performs_push (.reference object) (perform_append popArguments_time rfl built)

theorem performs_text {object : ObjectId} {content : String}
    (built : world.object? object = some (.builder content)) :
    Performs file world ⟨.reference object :: stack, depth + 1, maxStack, locals⟩
        (.invoke .virtual Trace.builderText :: rest) after last ↔
      depth + 1 ≤ maxStack ∧ Performs file (world.allocate (.text content)).1
        ⟨.reference (world.allocate (.text content)).2 :: stack, depth + 1, maxStack, locals⟩ rest
          after last := by
  apply performs_push (.reference (world.allocate (.text content)).2)
  simp [perform, Trace.builderText, Frame.popArguments, Frame.popReversed, invoke,
    popReference_cons, callOn, Trace.stringBuilderClass, Trace.printStreamClass, built, pushResult]

/-- Printing a text on the console succeeds unless the sink refuses the line. -/
theorem perform_println {text console : ObjectId} {line : String}
    (is_text : world.object? text = some (.text line))
    (is_console : world.object? console = some .console) :
    perform file world
        ⟨.reference text :: .reference console :: stack, depth + 1 + 1, maxStack, locals⟩
        (.invoke .virtual Trace.println) =
      match world.sink.refusal? (.line line) with
      | some reason => (world.ask (.line line), .error (.output reason))
      | none => (world.print line, .ok (.next ⟨stack, depth, maxStack, locals⟩)) := by
  have popped : (⟨.reference text :: .reference console :: stack, depth + 1 + 1, maxStack,
      locals⟩ : Frame).popArguments Trace.println.type.parameters =
      .ok ([.reference text], ⟨.reference console :: stack, depth + 1, maxStack, locals⟩) :=
    popArguments_text _
  have rendered : world.render (.reference text) = .ok line := by
    simp [World.render, is_text]
  simp only [perform, popped, invoke, popReference_cons]
  simp only [callOn, Trace.println, and_self, if_true, is_console, ne_eq, not_true_eq_false,
    if_false, List.head?_cons, Option.map_some, Option.getD_some, rendered]
  cases world.sink.refusal? (.line line) with
  | none => rfl
  | some reason => rfl

theorem performs_println {text console : ObjectId} {line : String}
    (is_text : world.object? text = some (.text line))
    (is_console : world.object? console = some .console)
    (taken : world.sink.refusal? (.line line) = none) :
    Performs file world
        ⟨.reference text :: .reference console :: stack, depth + 1 + 1, maxStack, locals⟩
        (.invoke .virtual Trace.println :: rest) after last ↔
      Performs file (world.print line) ⟨stack, depth, maxStack, locals⟩ rest after last := by
  apply performs_next
  rw [perform_println is_text is_console, taken]

end Steps

/-! ## Lines ready to be printed -/

/-- A world in which a line is being composed in a builder of its own. -/
structure Composing (before : World) (builder console : ObjectId) (content : String)
    (world : World) : Prop where
  coherent : world.Coherent
  extends_before : before.Extends world
  /-- The builder is new. -/
  fresh : before.object? builder = none
  built : world.object? builder = some (.builder content)
  is_console : world.object? console = some .console
  clock_eq : world.clock = before.clock
  sink_eq : world.sink = before.sink
  printed_eq : world.printed = before.printed

/-- A world in which a line lies ready to be printed. -/
structure Ready (before : World) (line : String) (text console : ObjectId) (world : World) :
    Prop where
  coherent : world.Coherent
  extends_before : before.Extends world
  is_text : world.object? text = some (.text line)
  is_console : world.object? console = some .console
  clock_eq : world.clock = before.clock
  sink_eq : world.sink = before.sink
  printed_eq : world.printed = before.printed

theorem composing_start {world : World} (coherent : world.Coherent) :
    Composing world (world.theConsole.1.allocate (.builder "")).2 world.theConsole.2 ""
      (world.theConsole.1.allocate (.builder "")).1 := by
  obtain ⟨console_coherent, extends_console, shared, clock_eq, sink_eq, printed_eq⟩ :=
    World.theConsole_spec coherent
  refine ⟨World.coherent_allocate console_coherent _,
    extends_console.trans (World.extends_allocate _ _), ?_, World.object?_allocate_self _ _,
    World.object?_allocate _ (console_coherent.console _ shared), clock_eq, sink_eq, printed_eq⟩
  have unknown := World.object?_handle_of_allocate world.theConsole.1 (.builder "")
  cases found : world.object? (world.theConsole.1.allocate (.builder "")).2 with
  | none => rfl
  | some object =>
      rw [extends_console.objects found] at unknown
      simp at unknown

namespace Composing

variable {before world : World} {builder console : ObjectId} {content : String}

/-- A constant is made ready to be appended. -/
theorem constant (composing : Composing before builder console content world) (text : String) :
    Composing before builder console content (world.constant text).1 ∧
      (world.constant text).1.render (.reference (world.constant text).2) = .ok text := by
  obtain ⟨coherent, extends_constant, shared, clock_eq, sink_eq, printed_eq⟩ :=
    World.constant_spec composing.coherent text
  refine ⟨⟨coherent, composing.extends_before.trans extends_constant, composing.fresh,
    extends_constant.objects composing.built, extends_constant.objects composing.is_console,
    clock_eq.trans composing.clock_eq, sink_eq.trans composing.sink_eq,
    printed_eq.trans composing.printed_eq⟩, ?_⟩
  simp [World.render, coherent.constants text _ shared]

/-- The builder takes more. -/
theorem extend (composing : Composing before builder console content world) (more : String) :
    Composing before builder console (content ++ more) (world.extend builder more) := by
  obtain ⟨coherent, extends_before, fresh, built, is_console, clock_eq, sink_eq, printed_eq⟩ :=
    composing
  refine ⟨World.coherent_extend coherent builder more,
    ⟨fun {handle object} found => ?_, extends_before.constants, extends_before.console⟩, fresh, ?_,
    ?_, clock_eq, sink_eq, printed_eq⟩
  · have different : builder ≠ handle := by
      rintro rfl
      rw [fresh] at found
      simp at found
    rw [World.object?_extend, if_neg different]
    exact extends_before.objects found
  · rw [World.object?_extend, if_pos rfl, built]
    rfl
  · rw [World.object?_extend, is_console]
    split <;> rfl

/-- The text of the builder is a line. -/
theorem ready (composing : Composing before builder console content world) :
    Ready before content (world.allocate (.text content)).2 console
      (world.allocate (.text content)).1 :=
  ⟨World.coherent_allocate composing.coherent _,
    composing.extends_before.trans (World.extends_allocate _ _), World.object?_allocate_self _ _,
    World.object?_allocate _ composing.is_console, composing.clock_eq, composing.sink_eq,
    composing.printed_eq⟩

end Composing

/-- A constant is a line. -/
theorem ready_constant {world : World} (coherent : world.Coherent) (line : String) :
    Ready world line (world.theConsole.1.constant line).2 world.theConsole.2
      (world.theConsole.1.constant line).1 := by
  obtain ⟨console_coherent, extends_console, console_shared, clock_eq, sink_eq, printed_eq⟩ :=
    World.theConsole_spec coherent
  obtain ⟨line_coherent, extends_line, line_shared, line_clock, line_sink, line_printed⟩ :=
    World.constant_spec console_coherent line
  exact ⟨line_coherent, extends_console.trans extends_line,
    line_coherent.constants line _ line_shared,
    line_coherent.console _ (extends_line.console console_shared), line_clock.trans clock_eq,
    line_sink.trans sink_eq, line_printed.trans printed_eq⟩

/-- A frame with a text and the console on top. -/
def Frame.present (frame : Frame) (text console : ObjectId) : Frame :=
  { frame with
    stack := .reference text :: .reference console :: frame.stack
    depth := frame.depth + 1 + 1 }

/-- Further slots fit, as they are counted. -/
def Frame.Admits (frame : Frame) (slots : List UInt16) : Prop :=
  ∀ more ∈ slots, frame.depth + more ≤ frame.maxStack

/-- Where there is room for most slots without wrapping around, there is room for fewer. -/
theorem Frame.admits_of_room {frame : Frame} {slots : List UInt16} {most : Nat}
    (room : frame.depth.toNat + most ≤ frame.maxStack.toNat)
    (most_le : ∀ more ∈ slots, more.toNat ≤ most) : frame.Admits slots := by
  intro more member
  have bound := frame.maxStack.toNat_lt
  have fewer := most_le more member
  rw [UInt16.le_iff_toNat_le, UInt16.toNat_add, Nat.mod_eq_of_lt (by omega)]
  omega

/-- The part of the exit sequence that takes the time. -/
def timeCode (startSlot endSlot : UInt16) : List Instruction :=
  [.invoke .direct Trace.currentTimeMillis, .load .long startSlot, .longArithmetic .sub,
    .store .long endSlot]

/-- The part of the exit sequence that composes the line. -/
def lineCode (name : String) (endSlot : UInt16) : List Instruction :=
  [.getStatic Trace.console, .new Trace.stringBuilderClass, .dup,
    .invoke .special Trace.builderInit, .ldc (Trace.exitLineHead name),
    .invoke .virtual (Trace.builderAppend (.object Trace.stringClass)), .load .long endSlot,
    .invoke .virtual (Trace.builderAppend .long), .ldc Trace.exitLineTail,
    .invoke .virtual (Trace.builderAppend (.object Trace.stringClass)),
    .invoke .virtual Trace.builderText]

theorem exitCode_eq (name : String) (startSlot endSlot : UInt16) :
    Trace.exitCode name startSlot endSlot =
      timeCode startSlot endSlot ++ lineCode name endSlot ++
        [.invoke .virtual Trace.println] := rfl

section Sequences

variable {file : ClassFile} {world : World}

/-- The composed line lies ready once the code ran through. -/
theorem performs_line (file : ClassFile) (frame : Frame) (name : String) {endSlot : UInt16}
    {cost : Int64} (coherent : world.Coherent) (inside : endSlot.toNat + 2 ≤ frame.locals.size)
    (held : frame.locals.getD endSlot.toNat .top = .long cost) :
    ∃ later text console, Ready world (Trace.exitLine name cost.toInt) text console later ∧
      ∀ after last, Performs file world frame (lineCode name endSlot) after last ↔
        frame.Admits [1, 2, 3, 4] ∧ after = later ∧ last = frame.present text console := by
  obtain ⟨stack, depth, maxStack, locals⟩ := frame
  have started := composing_start coherent
  obtain ⟨with_head, head_rendered⟩ := started.constant (Trace.exitLineHead name)
  have after_head := with_head.extend (Trace.exitLineHead name)
  have after_cost := after_head.extend (Text.decimal cost.toInt)
  obtain ⟨with_tail, tail_rendered⟩ := after_cost.constant Trace.exitLineTail
  have composed := with_tail.extend Trace.exitLineTail
  have ready := composed.ready
  rw [String.empty_append, ← Trace.exitLine] at ready
  refine ⟨_, _, _, ready, fun after last => ?_⟩
  rw [lineCode, performs_console, performs_builder, performs_dup, performs_init, performs_ldc,
    performs_append_text head_rendered with_head.built, performs_load inside held,
    performs_append_time after_head.built, performs_ldc,
    performs_append_text tail_rendered with_tail.built, performs_text composed.built,
    performs_nil_iff, String.empty_append, ← Trace.exitLine]
  simp only [Frame.Admits, Frame.present, List.forall_mem_cons, UInt16.add_assoc]
  constructor
  · rintro ⟨one, two, -, three, -, -, four, -, -, -, -, reached⟩
    exact ⟨⟨one, two, three, four, by simp⟩, reached⟩
  · rintro ⟨⟨one, two, three, four, -⟩, reached⟩
    exact ⟨one, two, two, three, three, two, four, two, three, two, two, reached⟩

/-- Taking the time leaves it in its local. -/
theorem performs_time {frame : Frame} {startSlot endSlot : UInt16} {began : Int64}
    (start_inside : startSlot.toNat + 2 ≤ frame.locals.size)
    (held : frame.locals.getD startSlot.toNat .top = .long began)
    (end_inside : endSlot.toNat + 2 ≤ frame.locals.size) {after : World} {last : Frame} :
    Performs file world frame (timeCode startSlot endSlot) after last ↔
      frame.Admits [2, 4] ∧ after = world.readClock.1 ∧
        last =
          { frame with
            locals := keepTime frame.locals endSlot.toNat (world.clock.now - began) } := by
  obtain ⟨stack, depth, maxStack, locals⟩ := frame
  rw [timeCode, performs_clock, performs_load start_inside held, performs_sub,
    performs_store end_inside, performs_nil_iff]
  simp only [Frame.Admits, List.forall_mem_cons, UInt16.add_assoc]
  constructor
  · rintro ⟨two, four, -, reached⟩
    exact ⟨⟨two, four, by simp⟩, reached⟩
  · rintro ⟨⟨two, four, -⟩, reached⟩
    exact ⟨two, four, two, reached⟩

/-- A stored time can be loaded. -/
theorem held_of_performs_store {slot : UInt16} {after : World} {frame last : Frame}
    (performs : Performs file world frame [.store .long slot] after last) :
    slot.toNat + 2 ≤ last.locals.size ∧
      ∃ value, last.locals.getD slot.toNat .top = .long value := by
  obtain ⟨between, middle, performed, rest⟩ := performs_cons_iff.mp performs
  obtain ⟨-, rfl⟩ := performs_nil_iff.mp rest
  obtain ⟨stack, depth, maxStack, locals⟩ := frame
  cases stack with
  | nil => simp [perform, Frame.popKind, Frame.popLong, Frame.pop, Except.map, proceed, bind,
      Except.bind] at performed
  | cons value rest =>
      cases value with
      | long value =>
          by_cases inside : slot.toNat + 2 ≤ locals.size
          · simp only [perform, Frame.popKind, Frame.popLong, Frame.pop, Except.map, Frame.store,
              Frame.holds, Value.width, inside, decide_true, if_true, proceed, bind, Except.bind,
              Prod.mk.injEq, Except.ok.injEq, Transfer.next.injEq] at performed
            obtain ⟨-, rfl⟩ := performed
            exact ⟨by simpa using inside, value, getD_keepTime (by omega)⟩
          · simp [perform, Frame.popKind, Frame.popLong, Frame.pop, Except.map, Frame.store,
              Frame.holds, Value.width, inside, proceed, bind, Except.bind] at performed
      | _ => simp [perform, Frame.popKind, Frame.popLong, Frame.pop, Except.map, proceed, bind,
          Except.bind] at performed

/-- A constant line lies ready once the code ran through. -/
theorem performs_greeting (file : ClassFile) (frame : Frame) (line : String)
    (coherent : world.Coherent) :
    ∃ later text console, Ready world line text console later ∧
      ∀ after last, Performs file world frame [.getStatic Trace.console, .ldc line] after last ↔
        frame.Admits [1, 2] ∧ after = later ∧ last = frame.present text console := by
  obtain ⟨stack, depth, maxStack, locals⟩ := frame
  refine ⟨_, _, _, ready_constant coherent line, fun after last => ?_⟩
  rw [performs_console, performs_ldc, performs_nil_iff]
  simp only [Frame.Admits, Frame.present, List.forall_mem_cons, UInt16.add_assoc]
  constructor
  · rintro ⟨one, two, reached⟩
    exact ⟨⟨one, two, by simp⟩, reached⟩
  · rintro ⟨⟨one, two, -⟩, reached⟩
    exact ⟨one, two, reached⟩

/-! ## Whole sequences -/

/-- A world after a line was printed and the clock was read once. -/
structure Announced (before : World) (line : String) (after : World) : Prop where
  coherent : after.Coherent
  extends_before : before.Extends after
  clock_eq : after.clock = before.readClock.1.clock
  sink_eq : after.sink = before.sink.after (.line line)
  printed_eq : after.printed = before.printed.push line

/-- The entry sequence runs through if there is room, prints its line and keeps the time. -/
theorem performs_entry (file : ClassFile) (frame : Frame) (name : String) {startSlot : UInt16}
    (coherent : world.Coherent)
    (taken : world.sink.refusal? (.line (Trace.entryLine name)) = none)
    (room : frame.depth.toNat + 2 ≤ frame.maxStack.toNat)
    (inside : startSlot.toNat + 2 ≤ frame.locals.size) :
    ∃ later, Announced world (Trace.entryLine name) later ∧
      Performs file world frame (Trace.entryCode name startSlot) later
        { frame with locals := keepTime frame.locals startSlot.toNat world.clock.now } := by
  obtain ⟨greeted, text, console, ready, greeting_iff⟩ :=
    performs_greeting file frame (Trace.entryLine name) coherent
  refine ⟨(greeted.print (Trace.entryLine name)).readClock.1, ?_, ?_⟩
  · refine ⟨World.coherent_readClock (World.coherent_print ready.coherent _),
      (ready.extends_before.trans (World.extends_print _ _)).trans (World.extends_readClock _),
      ?_, ?_, ?_⟩
    · simp only [World.readClock, World.print, World.ask, ready.clock_eq]
    · simp only [World.readClock, World.print, World.ask, ready.sink_eq]
    · simp only [World.readClock, World.print, ready.printed_eq]
  · have greeting := (greeting_iff greeted _).mpr
      ⟨Frame.admits_of_room room (by simp), rfl, rfl⟩
    have admits : frame.Admits [2] := Frame.admits_of_room room (by simp)
    have clock_room : frame.depth + 2 ≤ frame.maxStack := admits 2 (by simp)
    refine performs_append_iff.mpr ⟨_, _, greeting, ?_⟩
    rw [Frame.present, performs_println ready.is_text ready.is_console (ready.sink_eq ▸ taken),
      performs_clock, performs_store inside, performs_nil_iff]
    exact ⟨clock_room, rfl, by simp [World.print, World.ask, ready.clock_eq]⟩

/-- The exit sequence runs through if there is room, prints its line and keeps the operands. -/
theorem performs_exit (file : ClassFile) (frame : Frame) (name : String)
    {startSlot endSlot : UInt16} {began : Int64} (coherent : world.Coherent)
    (taken : world.sink.refusal?
      (.line (Trace.exitLine name (world.clock.now - began).toInt)) = none)
    (room : frame.depth.toNat + 4 ≤ frame.maxStack.toNat)
    (start_inside : startSlot.toNat + 2 ≤ frame.locals.size)
    (held : frame.locals.getD startSlot.toNat .top = .long began)
    (end_inside : endSlot.toNat + 2 ≤ frame.locals.size) :
    ∃ later, Announced world (Trace.exitLine name (world.clock.now - began).toInt) later ∧
      Performs file world frame (Trace.exitCode name startSlot endSlot) later
        { frame with locals := keepTime frame.locals endSlot.toNat (world.clock.now - began) } := by
  have timed : Performs file world frame (timeCode startSlot endSlot) world.readClock.1
      { frame with locals := keepTime frame.locals endSlot.toNat (world.clock.now - began) } :=
    (performs_time start_inside held end_inside).mpr
      ⟨Frame.admits_of_room room (by simp), rfl, rfl⟩
  have kept : (keepTime frame.locals endSlot.toNat (world.clock.now - began)).getD
      endSlot.toNat .top = .long (world.clock.now - began) := getD_keepTime (by omega)
  obtain ⟨composed, text, console, ready, line_iff⟩ := performs_line file
      { frame with locals := keepTime frame.locals endSlot.toNat (world.clock.now - began) } name
      (World.coherent_readClock coherent) (by simpa using end_inside) kept
  have sink_eq : composed.sink = world.sink := ready.sink_eq
  refine ⟨composed.print (Trace.exitLine name (world.clock.now - began).toInt), ?_, ?_⟩
  · refine ⟨World.coherent_print ready.coherent _,
      ((World.extends_readClock world).trans ready.extends_before).trans (World.extends_print _ _),
      ready.clock_eq, ?_, ?_⟩
    · simp only [World.print, World.ask, sink_eq]
    · simp only [World.print, ready.printed_eq]
      rfl
  · have line := (line_iff composed _).mpr ⟨Frame.admits_of_room room (by simp), rfl, rfl⟩
    rw [exitCode_eq]
    refine performs_append_iff.mpr ⟨_, _, performs_append_iff.mpr ⟨_, _, timed, line⟩, ?_⟩
    rw [Frame.present, performs_println ready.is_text ready.is_console (sink_eq ▸ taken),
      performs_nil_iff]
    exact ⟨rfl, rfl⟩

end Sequences
end Machine
end MethodTracing
