import MethodTracing.Machine.Run
import MethodTracing.Proofs.Machine.Mirrors
import MethodTracing.Proofs.Machine.Transfers

/-!
# Instructions on worlds and frames that agree

An instruction does the same in two worlds and frames that agree up to the places of objects, unless
it reads the clock or shows the place of an object, or only the larger frame has room for it.
-/

namespace MethodTracing
namespace Machine

/-- Whether a call of a built-in member shows the place of an object: it prints or appends one that
is neither a text nor the console. -/
def showsPlace (world : World) (receiver : ObjectId) (arguments : List Value) (method : MethodRef) :
    Bool :=
  match arguments with
  | [argument] =>
      world.isPlain argument &&
        ((method.owner = Trace.printStreamClass ∧ method.name = "println" ∧
            world.object? receiver = some .console) ∨
          (method.owner = Trace.stringBuilderClass ∧ method.name = "append") : Bool)
  | _ => false

/-- Whether an instruction is such a call. -/
def rendersPlain (world : World) (frame : Frame) : Instruction → Bool
  | .invoke .virtual method =>
      match frame.popArguments method.type.parameters with
      | .error _ => false
      | .ok (arguments, rest) =>
          match rest.popReference with
          | .error _ => false
          | .ok (receiver, _) => showsPlace world receiver arguments method
  | _ => false

/-- Whether the instruction to execute neither reads the clock nor shows the place of an object. -/
def State.isOblivious (state : State) : Bool :=
  match state.current.instruction? with
  | none => true
  | some instruction =>
      !instruction.readsClock && !rendersPlain state.world state.current.frame instruction

/-- Failing for lack of room that the larger frame may have. -/
def Margin.SparesTrap (margin : Margin) : Trap → Prop
  | .fault cause => margin.Spares cause
  | .output _ => False

/-- Where control goes in one run, it goes in the other. -/
inductive Transfer.Matches (callees : Method → Method → Prop) (margin : Margin)
    (images : List ObjectId) : Transfer → Transfer → Prop
  | next {frame image : Frame} : frame.Matches images margin image →
      Matches callees margin images (.next frame) (.next image)
  | jump {frame image : Frame} (target : Label) : frame.Matches images margin image →
      Matches callees margin images (.jump frame target) (.jump image target)
  | call {frame image : Frame} {callee callee' : Method} {arguments arguments' : List Value} :
      frame.Matches images margin image → callees callee callee' →
      List.Forall₂ (Value.Matches images) arguments arguments' →
      Matches callees margin images (.call frame callee arguments) (.call image callee' arguments')
  | leave {value value' : Option Value} : Option.Rel (Value.Matches images) value value' →
      Matches callees margin images (.leave value) (.leave value')

/-- What comes of an instruction in one world comes of it in another, unless it fails for lack of
room. -/
def Echoes {α β : Type} (margin : Margin) (images : List ObjectId) (world image : World)
    (related : List ObjectId → α → β → Prop) (result : World × Except Trap α)
    (result' : World × Except Trap β) : Prop :=
  (∃ trap, result.2 = .error trap ∧ margin.SparesTrap trap) ∨
    ∃ more, World.Moves images more world result.1 image result'.1 ∧
      Mirrors margin.SparesTrap (related more) result.2 result'.2

section Instructions

variable {callees : Method → Method → Prop} {margin : Margin} {images : List ObjectId}
  {world image : World} {frame frame' : Frame}

/-- An instruction that leaves the world as it is. -/
theorem World.Matches.echoes {α β : Type} {related : List ObjectId → α → β → Prop}
    {outcome : Except Trap α} {outcome' : Except Trap β} (worlds : world.Matches images image)
    (mirrors : Mirrors margin.SparesTrap (related images) outcome outcome') :
    Echoes margin images world image related (world, outcome) (image, outcome') :=
  Or.inr ⟨images, worlds.stay, mirrors⟩

theorem proceed_mirrors {change change' : Except Fault Frame}
    (follows : Follows margin (Frame.Matches images margin) change change') :
    Mirrors margin.SparesTrap (Transfer.Matches callees margin images) (proceed change)
      (proceed change') := by
  rcases follows with frames | fault | spared
  · exact .ok (.next frames)
  · exact .error _
  · exact .excuse spared

theorem branch_mirrors {target : Label} {test test' : Except Fault (Bool × Frame)}
    (follows : Follows margin (fun answer answer' => answer.1 = answer'.1 ∧
      answer.2.Matches images margin answer'.2) test test') :
    Mirrors margin.SparesTrap (Transfer.Matches callees margin images) (branch target test)
      (branch target test') := by
  rcases follows with @⟨⟨holds, frame⟩, ⟨holds', frame'⟩, same, frames⟩ | fault | spared
  · obtain rfl : holds = holds' := same
    cases holds with
    | true => exact .ok (.jump target frames)
    | false => exact .ok (.next frames)
  · exact .error _
  · exact .excuse spared

theorem pushResult_mirrors (frames : frame.Matches images margin frame')
    {value value' : Option Value}
    (values : Option.Rel (Value.Matches images) value value') :
    Mirrors margin.SparesTrap (Transfer.Matches callees margin images) (pushResult frame value)
      (pushResult frame' value') := by
  cases values with
  | none => exact .ok (.next frames)
  | some values => exact proceed_mirrors (Frame.push_follows frames values)

theorem answer_echoes {called called' : World × Except Trap (Option Value)}
    (frames : frame.Matches images margin frame') :
    Echoes margin images world image (fun more => Option.Rel (Value.Matches more)) called called' →
      Echoes margin images world image (Transfer.Matches callees margin)
        (match called with
          | (world, .error trap) => (world, .error trap)
          | (world, .ok value) => (world, pushResult frame value))
        (match called' with
          | (world, .error trap) => (world, .error trap)
          | (world, .ok value) => (world, pushResult frame' value)) := by
  intro echoes
  obtain ⟨after, outcome⟩ := called
  obtain ⟨after', outcome'⟩ := called'
  rcases echoes with ⟨trap, failed, spared⟩ | ⟨more, moves, mirrors⟩
  · obtain rfl : outcome = .error trap := failed
    exact Or.inl ⟨trap, rfl, spared⟩
  · cases mirrors with
    | ok values => exact Or.inr ⟨more, moves, pushResult_mirrors (frames.mono moves.grows) values⟩
    | error trap => exact Or.inr ⟨more, moves, .error trap⟩
    | excuse spared => exact Or.inl ⟨_, rfl, spared⟩

/-! ## Calls of built-in members -/

/-- Print a line if there is one and the sink takes it. -/
def World.tryPrint (world : World) : Except Fault String → World × Except Trap (Option Value)
  | .error fault => (world, .error (.fault fault))
  | .ok line =>
      match world.sink.refusal? (.line line) with
      | some reason => (world.ask (.line line), .error (.output reason))
      | none => (world.print line, .ok none)

theorem tryPrint_echoes (worlds : world.Matches images image) (line : Except Fault String) :
    Echoes margin images world image (fun more => Option.Rel (Value.Matches more))
      (world.tryPrint line) (image.tryPrint line) := by
  cases line with
  | error fault => exact worlds.echoes (.error _)
  | ok line =>
      simp only [World.tryPrint, worlds.sink.refusal?_eq]
      cases world.sink.refusal? (.line line) with
      | some reason => exact Or.inr ⟨images, worlds.moves_ask (.line line), .error _⟩
      | none => exact Or.inr ⟨images, worlds.moves_print line, .ok .none⟩

theorem println_echoes (worlds : world.Matches images image) {receiver receiver' : ObjectId}
    {arguments arguments' : List Value} {method : MethodRef}
    (is_println : method.owner = Trace.printStreamClass ∧ method.name = "println")
    (found : images[receiver.index]? = some receiver')
    (related : List.Forall₂ (Value.Matches images) arguments arguments')
    (readable : showsPlace world receiver arguments method = false) :
    Echoes margin images world image (fun more => Option.Rel (Value.Matches more))
      (callOn world receiver arguments method) (callOn image receiver' arguments' method) := by
  simp only [callOn, if_pos is_println, worlds.objects found]
  by_cases is_console : world.object? receiver = some .console
  · simp only [is_console, ne_eq, not_true_eq_false, if_false]
    rcases related with _ | ⟨values, _ | _⟩
    · exact tryPrint_echoes worlds (.ok "")
    · have plain := readable
      simp only [showsPlace, is_println, is_console, true_and, true_or, decide_true,
        Bool.and_true] at plain
      simp only [List.head?_cons, Option.map_some, Option.getD_some, worlds.render_eq values plain]
      exact tryPrint_echoes worlds _
    · exact worlds.echoes (.error _)
  · simp only [ne_eq, is_console, not_false_eq_true, if_true]
    exact worlds.echoes (.error _)

theorem callOn_echoes (worlds : world.Matches images image) {receiver receiver' : ObjectId}
    {arguments arguments' : List Value} {method : MethodRef}
    (found : images[receiver.index]? = some receiver')
    (related : List.Forall₂ (Value.Matches images) arguments arguments')
    (readable : showsPlace world receiver arguments method = false) :
    Echoes margin images world image (fun more => Option.Rel (Value.Matches more))
      (callOn world receiver arguments method) (callOn image receiver' arguments' method) := by
  by_cases is_println : method.owner = Trace.printStreamClass ∧ method.name = "println"
  · exact println_echoes worlds is_println found related readable
  simp only [callOn, if_neg is_println]
  split
  · rename_i is_append
    rcases related with _ | @⟨argument, argument', _, _, values, _ | _⟩
    · exact worlds.echoes (.error _)
    · simp only [showsPlace, is_append, true_and, or_true, decide_true, Bool.and_true] at readable
      simp only [worlds.render_eq values readable, worlds.isBuilder_eq found]
      split
      · exact worlds.echoes (.error _)
      · split
        · rename_i more _ builds
          exact Or.inr
            ⟨images, worlds.moves_extend found builds more, .ok (.some (.reference found))⟩
        · exact worlds.echoes (.error _)
    · exact worlds.echoes (.error _)
  · split
    · simp only [worlds.objects found]
      split
      · rename_i content _
        exact Or.inr ⟨_, worlds.moves_allocate (.text content),
          .ok (.some (.reference (World.found_allocate worlds (.text content) _)))⟩
      · exact worlds.echoes (.error _)
    · exact worlds.echoes (.error _)

/-! ## Calls -/

section Calls

variable {file woven : ClassFile} (names : woven.name = file.name)
  (declared : ∀ method, Option.Rel callees (file.callee? method) (woven.callee? method))

include names declared

theorem invoke_echoes (worlds : world.Matches images image)
    (frames : frame.Matches images margin frame') {arguments arguments' : List Value}
    (related : List.Forall₂ (Value.Matches images) arguments arguments') {method : MethodRef}
    {call : CallKind} (timeless : (Instruction.invoke call method).readsClock = false)
    (readable : ∀ receiver rest, call = .virtual → frame.popReference = .ok (receiver, rest) →
      showsPlace world receiver arguments method = false) :
    Echoes margin images world image (Transfer.Matches callees margin)
      (invoke file world frame arguments method call)
      (invoke woven image frame' arguments' method call) := by
  have popped := (Frame.popReference_follows frames).outcomes
  cases call with
  | special =>
      have empty_iff : arguments = [] ↔ arguments' = [] := by cases related <;> simp
      simp only [invoke, empty_iff]
      rcases popped with ⟨_, _, popped, popped', _, rests⟩ | ⟨fault, popped, popped' | spared⟩
      · rw [popped, popped']
        simp only
        split
        · exact worlds.echoes (.ok (.next rests))
        · exact worlds.echoes (.error _)
      · rw [popped, popped']
        exact worlds.echoes (.error _)
      · rw [popped]
        exact Or.inl ⟨_, rfl, spared⟩
  | virtual =>
      simp only [invoke]
      rcases popped with ⟨⟨receiver, rest⟩, ⟨receiver', rest'⟩, popped, popped', found, rests⟩ |
        ⟨fault, popped, popped' | spared⟩
      · rw [popped, popped']
        exact answer_echoes rests
          (callOn_echoes worlds found related (readable receiver rest rfl popped))
      · rw [popped, popped']
        exact worlds.echoes (.error _)
      · rw [popped]
        exact Or.inl ⟨_, rfl, spared⟩
  | direct =>
      have not_clock : ¬(method.owner = Trace.systemClass ∧ method.name = "currentTimeMillis") := by
        simpa [Instruction.readsClock] using timeless
      simp only [invoke, if_neg not_clock, names]
      split
      · have callee := declared method
        generalize file.callee? method = found at callee
        generalize woven.callee? method = found' at callee
        cases callee with
        | none => exact worlds.echoes (.error _)
        | some callee => exact worlds.echoes (.ok (.call frames callee related))
      · exact worlds.echoes (.error _)

/-- An instruction that neither reads the clock nor shows the place of an object. -/
theorem perform_echoes (worlds : world.Matches images image)
    (frames : frame.Matches images margin frame') {instruction : Instruction}
    (timeless : instruction.readsClock = false)
    (readable : rendersPlain world frame instruction = false) :
    Echoes margin images world image (Transfer.Matches callees margin)
      (perform file world frame instruction) (perform woven image frame' instruction) := by
  cases instruction with
  | label | nop => exact worlds.echoes (.ok (.next frames))
  | iconst value => exact worlds.echoes (proceed_mirrors (Frame.push_follows frames (.int value)))
  | lconst value => exact worlds.echoes (proceed_mirrors (Frame.push_follows frames (.long value)))
  | ldc content =>
      obtain ⟨more, moves, found⟩ := worlds.moves_constant content
      exact Or.inr ⟨more, moves,
        proceed_mirrors (Frame.push_follows (frames.mono moves.grows) (.reference found))⟩
  | load kind slot =>
      exact worlds.echoes (proceed_mirrors ((Frame.load_follows frames slot.toNat kind).bind
        fun _ _ values => Frame.push_follows frames values))
  | store kind slot =>
      exact worlds.echoes (proceed_mirrors ((Frame.popKind_follows frames kind).bind
        fun _ _ popped => Frame.store_follows popped.2 slot.toNat popped.1))
  | iinc slot delta =>
      refine worlds.echoes (proceed_mirrors ((Frame.load_follows frames slot.toNat .int).bind
        fun _ _ values => ?_))
      cases values with
      | int value => exact Frame.store_follows frames slot.toNat (.int _)
      | _ => exact .error _
  | intArithmetic op =>
      refine worlds.echoes (proceed_mirrors ((Frame.popInt_follows frames).bind
        fun _ _ rights => (Frame.popInt_follows rights.2).bind fun _ _ lefts => ?_))
      simp only [rights.1, lefts.1]
      exact Frame.push_follows lefts.2 (.int _)
  | longArithmetic op =>
      refine worlds.echoes (proceed_mirrors ((Frame.popLong_follows frames).bind
        fun _ _ rights => (Frame.popLong_follows rights.2).bind fun _ _ lefts => ?_))
      simp only [rights.1, lefts.1]
      exact Frame.push_follows lefts.2 (.long _)
  | dup =>
      exact worlds.echoes (proceed_mirrors ((Frame.popNarrow_follows frames).bind
        fun _ _ popped => (Frame.push_follows popped.2 popped.1).bind
          fun _ _ pushed => Frame.push_follows pushed popped.1))
  | pop =>
      exact worlds.echoes (proceed_mirrors ((Frame.popNarrow_follows frames).map
        fun _ _ popped => popped.2))
  | pop2 =>
      refine worlds.echoes (proceed_mirrors ((Frame.pop_follows frames).bind
        fun _ _ popped => ?_))
      simp only [popped.1.width_eq]
      split
      · exact .ok popped.2
      · exact (Frame.popNarrow_follows popped.2).bind fun _ _ further => .ok further.2
  | swap =>
      exact worlds.echoes (proceed_mirrors ((Frame.popNarrow_follows frames).bind
        fun _ _ uppers => (Frame.popNarrow_follows uppers.2).bind
          fun _ _ lowers => (Frame.push_follows lowers.2 uppers.1).bind
            fun _ _ pushed => Frame.push_follows pushed lowers.1))
  | branchZero condition target =>
      refine worlds.echoes (branch_mirrors ((Frame.popInt_follows frames).bind
        fun _ _ popped => .ok ⟨?_, popped.2⟩))
      simp only [popped.1]
  | branchCompare condition target =>
      refine worlds.echoes (branch_mirrors ((Frame.popInt_follows frames).bind
        fun _ _ rights => (Frame.popInt_follows rights.2).bind
          fun _ _ lefts => .ok ⟨?_, lefts.2⟩))
      simp only [rights.1, lefts.1]
  | goto target => exact worlds.echoes (.ok (.jump target frames))
  | getStatic field =>
      simp only [perform]
      split
      · obtain ⟨more, moves, found⟩ := worlds.moves_console
        exact Or.inr ⟨more, moves,
          proceed_mirrors (Frame.push_follows (frames.mono moves.grows) (.reference found))⟩
      · exact worlds.echoes (.error _)
  | new className =>
      let made : Object :=
        if className = Trace.stringBuilderClass then .builder "" else .plain className
      have moves := worlds.moves_allocate made
      exact Or.inr ⟨_, moves, proceed_mirrors (Frame.push_follows (frames.mono moves.grows)
        (.reference (World.found_allocate worlds made _)))⟩
  | invoke call method =>
      simp only [perform]
      rcases (Frame.popArguments_follows frames method.type.parameters).outcomes with
        ⟨⟨arguments, rest⟩, ⟨arguments', rest'⟩, popped, popped', related, rests⟩ |
        ⟨fault, popped, popped' | spared⟩
      · rw [popped, popped']
        refine invoke_echoes names declared worlds rests related timeless
          fun receiver further is_virtual receiver_popped => ?_
        subst is_virtual
        simpa [rendersPlain, popped, receiver_popped] using readable
      · rw [popped, popped']
        exact worlds.echoes (.error _)
      · rw [popped]
        exact Or.inl ⟨_, rfl, spared⟩
  | ret kind =>
      cases kind with
      | none => exact worlds.echoes (.ok (.leave .none))
      | some kind =>
          simp only [perform]
          rcases (Frame.popKind_follows frames kind).outcomes with
            ⟨_, _, popped, popped', values, _⟩ | ⟨fault, popped, popped' | spared⟩
          · rw [popped, popped']
            exact worlds.echoes (.ok (.leave (.some values)))
          · rw [popped, popped']
            exact worlds.echoes (.error _)
          · rw [popped]
            exact Or.inl ⟨_, rfl, spared⟩
  | athrow =>
      simp only [perform]
      rcases (Frame.popReference_follows frames).outcomes with
        ⟨_, _, popped, popped', _⟩ | ⟨fault, popped, popped' | spared⟩
      · rw [popped, popped']
        exact worlds.echoes (.error _)
      · rw [popped, popped']
        exact worlds.echoes (.error _)
      · rw [popped]
        exact Or.inl ⟨_, rfl, spared⟩

end Calls
end Instructions
end Machine
end MethodTracing
