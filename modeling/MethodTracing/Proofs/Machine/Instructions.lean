import MethodTracing.Proofs.Machine.Frames

/-!
# Instructions within their limits

An instruction that fits at the depth of its frame changes the depth by its static effect, provided
that it names the members of the platform with their widths.
-/

namespace MethodTracing

/-- The platform's members that the machine supports are named with the widths that it pushes. -/
def Instruction.NamesWidths : Instruction → Prop
  | .getStatic field =>
      field.owner = Trace.systemClass → field.name = "out" → field.type.width = 1
  | .invoke .direct method =>
      method.owner = Trace.systemClass → method.name = "currentTimeMillis" →
        method.type.resultSlots = 2
  | .invoke .special method => method.name = "<init>" → method.type.resultSlots = 0
  | .invoke .virtual method =>
      (method.owner = Trace.printStreamClass → method.name = "println" →
        method.type.resultSlots = 0) ∧
      (method.owner = Trace.stringBuilderClass →
        method.name = "append" ∨ method.name = "toString" → method.type.resultSlots = 1)
  | _ => True

/-- The slots of a call's arguments stay below the ceiling. -/
def Instruction.CountsSlots : Instruction → Prop
  | .invoke call method => method.type.parameterWidth + call.receiverSlots ≤ slotCeiling
  | _ => True

namespace Machine

open Verification

/-- The slots of the value that is answered, if there is one. -/
def resultWidth (value : Option Value) : Nat :=
  (value.map Value.width).getD 0

/-- Where an instruction leads from a depth, as its static effect says. -/
def Transfer.Follows (file : ClassFile) (limits : FrameLimits) (used depth : Nat)
    (instruction : Instruction) : Transfer → Prop
  | .next frame =>
      instruction.endsBlock = false ∧ frame.Keeps limits used (after depth instruction)
  | .jump frame target =>
      instruction.branchTarget? = some target ∧ frame.Keeps limits used (after depth instruction)
  | .call frame callee arguments =>
      ∃ method, instruction = .invoke .direct method ∧ file.callee? method = some callee ∧
        arguments.map Value.width = method.type.parameters.map FieldType.width ∧
        method.type.parameterWidth ≤ depth ∧
        frame.Keeps limits used (depth - method.type.parameterWidth)
  | .leave value =>
      ∃ kind, instruction = .ret kind ∧ resultWidth value = (kind.map ValueKind.width).getD 0

/-- An instruction answers something with a property, or ends the call for a reason that is not
structural. -/
def Orderly {α : Type} (property : α → Prop) : Except Trap α → Prop
  | .ok answer => property answer
  | .error (.fault fault) => fault.isStructural = false
  | .error (.output _) => True

section Instructions

variable {file : ClassFile} {limits : FrameLimits} {used depth : Nat} {frame : Frame}
  {instruction : Instruction}

/-- An instruction that only changes the frame and goes on. -/
theorem follows_proceed {change : Except Fault Frame} (goes_on : instruction.endsBlock = false)
    (sound : Sound (Frame.Keeps limits used (after depth instruction)) change) :
    Orderly (Transfer.Follows file limits used depth instruction) (proceed change) := by
  cases change with
  | ok frame => exact ⟨goes_on, sound⟩
  | error fault => exact sound

/-- A conditional branch. -/
theorem follows_branch {test : Except Fault (Bool × Frame)} {target : Label}
    (goes_on : instruction.endsBlock = false) (branches : instruction.branchTarget? = some target)
    (sound : Sound (fun answer => answer.2.Keeps limits used (after depth instruction)) test) :
    Orderly (Transfer.Follows file limits used depth instruction) (branch target test) := by
  cases test with
  | ok answer =>
      obtain ⟨holds, frame⟩ := answer
      cases holds with
      | true => exact ⟨branches, sound⟩
      | false => exact ⟨goes_on, sound⟩
  | error fault => exact sound

theorem render_sound (world : World) (value : Value) :
    Sound (fun _ => True) (world.render value) := by
  cases value with
  | int value | long value => trivial
  | top => rfl
  | reference object =>
      simp only [World.render]
      split <;> trivial

/-- A call of a built-in method answers a value of the width that its reference names. -/
theorem callOn_width (world : World) (receiver : ObjectId) (arguments : List Value)
    {method : MethodRef} (names : (Instruction.invoke .virtual method).NamesWidths) :
    Orderly (fun value => resultWidth value = method.type.resultSlots)
      (callOn world receiver arguments method).2 := by
  obtain ⟨names_println, names_builder⟩ := names
  unfold callOn
  split
  · rename_i is_println
    have rendered : Sound (fun _ => True) ((arguments.head?.map world.render).getD (.ok "")) := by
      cases arguments with
      | nil => trivial
      | cons argument rest => exact render_sound world argument
    split
    · rfl
    · split
      · rfl
      · split
        · rename_i fault failed
          rw [failed] at rendered
          exact rendered
        · split
          · trivial
          · exact (names_println is_println.1 is_println.2).symm
  · split
    · rename_i is_append
      split
      · rename_i argument
        have rendered := render_sound world argument
        split
        · rename_i fault failed
          rw [failed] at rendered
          exact rendered
        · split
          · exact (names_builder is_append.1 (Or.inl is_append.2)).symm
          · rfl
      · rfl
    · split
      · rename_i is_toString
        split
        · exact (names_builder is_toString.1 (Or.inr is_toString.2)).symm
        · rfl
      · rfl

theorem pushResult_follows {value : Option Value} {below : Nat}
    (goes_on : instruction.endsBlock = false) (keeps : frame.Keeps limits used below)
    (after_eq : after depth instruction = below + resultWidth value)
    (room : after depth instruction ≤ limits.maxStack) :
    Orderly (Transfer.Follows file limits used depth instruction) (pushResult frame value) := by
  cases value with
  | none => exact ⟨goes_on, after_eq ▸ keeps⟩
  | some value =>
      apply follows_proceed goes_on
      rw [after_eq] at room ⊢
      exact Frame.push_sound keeps _ room

/-- A call does what its static effect says. -/
theorem invoke_follows {world : World} {arguments : List Value} {call : CallKind}
    {method : MethodRef} (names : (Instruction.invoke call method).NamesWidths)
    (counts : (Instruction.invoke call method).CountsSlots)
    (fits : Fits limits depth (.invoke call method))
    (widths : arguments.map Value.width = method.type.parameters.map FieldType.width)
    (keeps : frame.Keeps limits used (depth - method.type.parameterWidth)) :
    Orderly (Transfer.Follows file limits used depth (.invoke call method))
      (invoke file world frame arguments method call).2 := by
  have pops_eq : (Instruction.invoke call method).effect.pops =
      method.type.parameterWidth + call.receiverSlots := by
    simp only [Instruction.CountsSlots] at counts
    simp only [Instruction.effect, CallKind.argumentSlots, MethodType.parameterSlots]
    omega
  have enough := fits.enough
  have room := fits.room
  have after_eq : after depth (.invoke call method) =
      depth - (method.type.parameterWidth + call.receiverSlots) + method.type.resultSlots := by
    rw [after, pops_eq]
    rfl
  rw [pops_eq] at enough
  cases call with
  | special =>
      simp only [CallKind.receiverSlots] at enough after_eq
      have popped := Frame.popReference_sound keeps (by omega)
      simp only [invoke]
      cases found : frame.popReference with
      | error fault =>
          rw [found] at popped
          exact popped
      | ok answer =>
          rw [found] at popped
          obtain ⟨receiver, rest⟩ := answer
          simp only
          split
          · rename_i is_init
            refine ⟨rfl, ?_⟩
            rw [after_eq, names is_init.1, Nat.add_zero, ← Nat.sub_sub]
            exact popped
          · rfl
  | virtual =>
      simp only [CallKind.receiverSlots] at enough after_eq
      have popped := Frame.popReference_sound keeps (by omega)
      simp only [invoke]
      cases found : frame.popReference with
      | error fault =>
          rw [found] at popped
          exact popped
      | ok answer =>
          rw [found] at popped
          obtain ⟨receiver, rest⟩ := answer
          have answered := callOn_width world receiver arguments names
          simp only
          cases called : callOn world receiver arguments method with
          | mk later outcome =>
              rw [called] at answered
              cases outcome with
              | error trap =>
                  cases trap with
                  | fault fault => exact answered
                  | output reason => trivial
              | ok value =>
                  refine pushResult_follows rfl popped ?_ room
                  rw [after_eq, ← Nat.sub_sub, answered]
  | direct =>
      simp only [CallKind.receiverSlots, Nat.add_zero] at enough after_eq
      simp only [invoke]
      split
      · rename_i is_clock
        change Orderly _ (pushResult frame (some (.long world.clock.now)))
        refine pushResult_follows rfl keeps ?_ room
        rw [after_eq, names is_clock.1 is_clock.2]
        rfl
      · split
        · split
          · rename_i callee found
            exact ⟨method, rfl, found, widths, enough, keeps⟩
          · rfl
        · rfl

/-- An instruction that fits does what its static effect says. -/
theorem perform_follows (file : ClassFile) (world : World) (names : instruction.NamesWidths)
    (counts : instruction.CountsSlots) (fits : Fits limits depth instruction)
    (within : localsOf instruction ≤ used) (keeps : frame.Keeps limits used depth) :
    Orderly (Transfer.Follows file limits used depth instruction)
      (perform file world frame instruction).2 := by
  obtain ⟨enough, room, inside⟩ := fits
  cases instruction with
  | label target => exact ⟨rfl, keeps⟩
  | nop => exact ⟨rfl, keeps⟩
  | iconst value => exact follows_proceed rfl (Frame.push_sound keeps _ room)
  | lconst value => exact follows_proceed rfl (Frame.push_sound keeps _ room)
  | ldc content => exact follows_proceed rfl (Frame.push_sound keeps _ room)
  | load kind slot =>
      apply follows_proceed rfl
      refine (Frame.load_sound keeps _ kind inside).bind fun value width_eq => ?_
      have pushed := Frame.push_sound keeps value
      rw [width_eq] at pushed
      exact pushed room
  | store kind slot =>
      apply follows_proceed rfl
      have positive := kind.width_pos
      simp only [Instruction.effect] at enough
      refine (Frame.popKind_sound keeps (by omega) kind).bind fun answer popped => ?_
      obtain ⟨width_eq, -, kept⟩ := popped
      apply Frame.store_sound kept
      · rw [width_eq]
        exact inside
      · rw [width_eq]
        exact within
  | iinc slot delta =>
      apply follows_proceed rfl
      refine (Frame.load_sound keeps _ .int inside).bind fun value width_eq => ?_
      cases value with
      | int value => exact Frame.store_sound keeps _ _ inside within
      | _ => rfl
  | intArithmetic op =>
      apply follows_proceed rfl
      simp only [Instruction.effect] at enough
      refine (Frame.popInt_sound keeps (by omega)).bind fun right kept => ?_
      refine (Frame.popInt_sound kept (by omega)).bind fun left kept => ?_
      exact Frame.push_sound kept _ room
  | longArithmetic op =>
      apply follows_proceed rfl
      simp only [Instruction.effect] at enough
      refine (Frame.popLong_sound keeps (by omega)).bind fun right popped => ?_
      refine (Frame.popLong_sound popped.2 (by omega)).bind fun left popped => ?_
      exact Frame.push_sound popped.2 _ room
  | dup =>
      apply follows_proceed rfl
      simp only [Instruction.effect] at enough
      simp only [after, Instruction.effect] at room
      refine (Frame.popNarrow_sound keeps (by omega)).bind fun answer popped => ?_
      obtain ⟨narrow, kept⟩ := popped
      refine (Frame.push_narrow_sound kept narrow (by omega)).bind fun frame kept => ?_
      exact Frame.push_narrow_sound kept narrow (by omega)
  | pop =>
      apply follows_proceed rfl
      exact (Frame.popNarrow_sound keeps enough).map fun answer popped => popped.2
  | pop2 =>
      apply follows_proceed rfl
      simp only [Instruction.effect] at enough
      obtain ⟨value, rest, popped, -, kept⟩ := Frame.pop_ok keeps (by omega)
      have answered : Sound (· = (value, rest)) frame.pop := by
        rw [popped]
        rfl
      apply answered.bind
      rintro answer rfl
      by_cases wide : value.width = 2
      · rw [wide] at kept
        simp only [if_pos wide]
        exact kept
      · have narrow : value.width = 1 := by
          have := value.width_pos
          have := value.width_le_two
          omega
        rw [narrow] at kept
        simp only [if_neg wide]
        exact (Frame.popNarrow_sound kept (by omega)).map fun answer popped => popped.2
  | swap =>
      apply follows_proceed rfl
      simp only [Instruction.effect] at enough
      simp only [after, Instruction.effect] at room
      refine (Frame.popNarrow_sound keeps (by omega)).bind fun upper popped => ?_
      obtain ⟨upper_narrow, kept⟩ := popped
      refine (Frame.popNarrow_sound kept (by omega)).bind fun lower popped => ?_
      obtain ⟨lower_narrow, kept⟩ := popped
      refine (Frame.push_narrow_sound kept upper_narrow (by omega)).bind fun frame kept => ?_
      exact Frame.push_narrow_sound kept lower_narrow (by omega)
  | branchZero condition target =>
      apply follows_branch rfl rfl
      exact (Frame.popInt_sound keeps enough).bind fun answer kept => kept
  | branchCompare condition target =>
      apply follows_branch rfl rfl
      simp only [Instruction.effect] at enough
      refine (Frame.popInt_sound keeps (by omega)).bind fun right kept => ?_
      exact (Frame.popInt_sound kept (by omega)).bind fun left kept => kept
  | goto target => exact ⟨rfl, keeps⟩
  | getStatic field =>
      simp only [perform]
      split
      · rename_i is_console
        apply follows_proceed rfl
        have pushed := Frame.push_sound keeps (.reference world.theConsole.2)
        simp only [after, Instruction.effect, names is_console.1 is_console.2] at room ⊢
        exact pushed room
      · rfl
  | new className => exact follows_proceed rfl (Frame.push_sound keeps _ room)
  | invoke call method =>
      have pops_le : method.type.parameterWidth ≤ depth := by
        simp only [Instruction.CountsSlots] at counts
        simp only [Instruction.effect, CallKind.argumentSlots, MethodType.parameterSlots] at enough
        omega
      have popped := Frame.popArguments_sound keeps pops_le
      simp only [perform]
      cases found : frame.popArguments method.type.parameters with
      | error fault =>
          rw [found] at popped
          exact popped
      | ok answer =>
          rw [found] at popped
          exact invoke_follows names counts ⟨enough, room, inside⟩ popped.1 popped.2
  | ret kind =>
      cases kind with
      | none => exact ⟨none, rfl, rfl⟩
      | some kind =>
          have positive := kind.width_pos
          simp only [Instruction.effect] at enough
          have popped := Frame.popKind_sound keeps (by omega) kind
          simp only [perform]
          cases found : frame.popKind kind with
          | error fault =>
              rw [found] at popped
              exact popped
          | ok answer =>
              rw [found] at popped
              exact ⟨some kind, rfl, popped.1⟩
  | athrow =>
      have popped := Frame.popReference_sound keeps enough
      simp only [perform]
      cases found : frame.popReference with
      | error fault =>
          rw [found] at popped
          exact popped
      | ok answer => rfl

end Instructions
end Machine
end MethodTracing
