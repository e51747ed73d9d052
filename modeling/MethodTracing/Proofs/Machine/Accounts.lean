import MethodTracing.Proofs.Machine.Exchanges
import MethodTracing.Proofs.Machine.Sessions

/-!
# Accounts of frames

What an instruction does to its frame where it succeeds, whatever it finds there: the operands that
it exchanges for others, and the local that it writes.

Main statement: in every frame that a run reaches every operand is set, there are as many locals as
the method declares, and the recorded depth is within the limit; it is that of the operands if the
limit is at most 65533, and up to a multiple of 65536 otherwise.  Every instruction that names no
member exchanges as many slots as its static effect says.
-/

namespace MethodTracing

/-- Whether an instruction names a member of a class; the type in its name decides its static
effect. -/
def Instruction.namesMember : Instruction → Bool
  | .getStatic _ | .invoke _ _ => true
  | _ => false

namespace Machine

/-! ## Instructions -/

/-- The frame as an instruction leaves it; a return has popped the value that it answers. -/
def Transfer.frame (before : Frame) : Transfer → Frame
  | .next after | .jump after _ | .call after _ _ => after
  | .leave none => before
  | .leave (some value) => before.without value

/-- An instruction leaves a frame in order, having done to the operands what its static effect says
unless it names a member, and to the locals what it was about to write. -/
structure Transfer.Accords (method : Method) (instruction : Instruction) (before : Frame)
    (transfer : Transfer) : Prop where
  balanced : (transfer.frame before).Balanced method
  exchanges : instruction.namesMember = false →
    before.Exchanges instruction.effect.pops instruction.effect.pushes (transfer.frame before)
  wrote : before.Wrote (transfer.frame before) (before.write? instruction)
  answer : transfer ≠ .leave (some .top)

section Instructions

variable {file : ClassFile} {world : World} {method : Method} {frame : Frame}
  {instruction : Instruction}

/-- An instruction that only changes the frame and goes on. -/
theorem answers_proceed {change : Except Fault Frame}
    (accords : Answers (fun after => Transfer.Accords method instruction frame (.next after))
      change) :
    Answers (Transfer.Accords method instruction frame) (proceed change) := by
  cases change with
  | error fault => exact .error _
  | ok after => exact .ok (accords after rfl)

/-- Trading operands. -/
theorem accords_proceed {change : Except Fault Frame} (plain : frame.write? instruction = none)
    (trades : Answers (frame.Trades method instruction.effect.pops instruction.effect.pushes)
      change) :
    Answers (Transfer.Accords method instruction frame) (proceed change) := by
  refine answers_proceed (trades.imp fun after traded => ?_)
  refine ⟨traded.balanced, fun _ => traded.exchanges, ?_, by simp⟩
  rw [plain]
  exact traded.locals_eq

/-- A conditional branch. -/
theorem accords_branch {test : Except Fault (Bool × Frame)} {target : Label}
    (plain : frame.write? instruction = none)
    (trades : Answers (fun answer =>
      frame.Trades method instruction.effect.pops instruction.effect.pushes answer.2) test) :
    Answers (Transfer.Accords method instruction frame) (branch target test) := by
  cases test with
  | error fault => exact .error _
  | ok answer =>
      obtain ⟨holds, after⟩ := answer
      have traded := trades _ rfl
      have wrote : frame.Wrote after (frame.write? instruction) := by
        rw [plain]
        exact traded.locals_eq
      cases holds with
      | true => exact .ok ⟨traded.balanced, fun _ => traded.exchanges, wrote, by simp⟩
      | false => exact .ok ⟨traded.balanced, fun _ => traded.exchanges, wrote, by simp⟩

/-- An instruction that writes a value to a local once operands are traded. -/
theorem accords_store {slot taken : Nat} {value : Value} {middle : Frame}
    (trades : frame.Trades method taken 0 middle)
    (about : frame.write? instruction = some ⟨slot, value⟩)
    (effect_eq : instruction.effect = ⟨taken, 0⟩) :
    Answers (fun after => Transfer.Accords method instruction frame (.next after))
      (middle.store slot value) := by
  refine (Frame.store_balanced trades.balanced slot value).imp fun after stored => ?_
  obtain ⟨balanced, stack_eq, inside, locals_eq⟩ := stored
  obtain ⟨off, kept, on, before_eq, taken_eq, middle_eq, put_eq⟩ := trades.exchanges
  refine ⟨balanced, fun _ => ?_, ?_, by simp⟩
  · rw [effect_eq]
    exact ⟨off, kept, on, before_eq, taken_eq, stack_eq.trans middle_eq, put_eq⟩
  · rw [trades.locals_eq] at inside locals_eq
    rw [about]
    exact ⟨inside, locals_eq⟩

/-- A member that is called on an object answers no value that is not set. -/
theorem callOn_set (world : World) (receiver : ObjectId) (arguments : List Value)
    (method : MethodRef) :
    Answers (fun value => value ≠ some .top) (callOn world receiver arguments method).2 := by
  unfold callOn
  repeat' split
  all_goals
    first
    | exact .error _
    | exact .ok (by simp)

theorem accords_pushResult {middle : Frame} {value : Option Value}
    (named : instruction.namesMember = true) (plain : frame.write? instruction = none)
    (balanced : middle.Balanced method) (locals_eq : middle.locals = frame.locals)
    (set : value ≠ some .top) :
    Answers (Transfer.Accords method instruction frame) (pushResult middle value) := by
  have accords {after : Frame} (after_balanced : after.Balanced method)
      (after_locals : after.locals = middle.locals) :
      Transfer.Accords method instruction frame (.next after) := by
    refine ⟨after_balanced, by simp [named], ?_, by simp⟩
    rw [plain]
    exact after_locals.trans locals_eq
  cases value with
  | none => exact .ok (accords balanced rfl)
  | some value =>
      have pushed := Frame.push_trades balanced value (by simpa using set)
      cases found : middle.push value with
      | error fault =>
          simp only [pushResult, found]
          exact .error _
      | ok after =>
          simp only [pushResult, found]
          exact .ok (accords (pushed after found).balanced (pushed after found).locals_eq)

theorem invoke_accords {middle : Frame} (arguments : List Value) (called : MethodRef)
    (call : CallKind) (balanced : middle.Balanced method)
    (locals_eq : middle.locals = frame.locals) :
    Answers (Transfer.Accords method (.invoke call called) frame)
      (invoke file world middle arguments called call).2 := by
  have popped := Frame.popReference_takes balanced
  cases call with
  | special =>
      simp only [invoke]
      split
      · exact .error _
      · rename_i receiver rest found
        have taken := (popped _ found).trades
        split
        · exact .ok ⟨taken.balanced, by simp [Instruction.namesMember],
            taken.locals_eq.trans locals_eq, by simp⟩
        · exact .error _
  | virtual =>
      simp only [invoke]
      split
      · exact .error _
      · rename_i receiver rest found
        have taken := (popped _ found).trades
        have answered := callOn_set world receiver arguments called
        split
        · exact .error _
        · rename_i value called_eq
          rw [called_eq] at answered
          exact accords_pushResult rfl rfl taken.balanced (taken.locals_eq.trans locals_eq)
            (answered _ rfl)
  | direct =>
      simp only [invoke]
      split
      · change Answers _ (pushResult middle (some (.long world.clock.now)))
        exact accords_pushResult rfl rfl balanced locals_eq (by simp)
      · repeat' split
        · exact .ok ⟨balanced, by simp [Instruction.namesMember], locals_eq, by simp⟩
        · exact .error _
        · exact .error _

/-- Whatever instruction succeeds on a frame in order leaves it in order. -/
theorem perform_accords (file : ClassFile) (world : World) (balanced : frame.Balanced method)
    (instruction : Instruction) :
    Answers (Transfer.Accords method instruction frame)
      (perform file world frame instruction).2 := by
  cases instruction with
  | label target =>
      exact .ok ⟨balanced, fun _ => (Frame.Trades.refl balanced).exchanges, rfl, by simp⟩
  | nop => exact .ok ⟨balanced, fun _ => (Frame.Trades.refl balanced).exchanges, rfl, by simp⟩
  | iconst value => exact accords_proceed rfl (Frame.push_trades balanced _ (by simp))
  | lconst value => exact accords_proceed rfl (Frame.push_trades balanced _ (by simp))
  | ldc content => exact accords_proceed rfl (Frame.push_trades balanced _ (by simp))
  | load kind slot =>
      apply accords_proceed rfl
      have loaded : Answers (fun value => value.kind? = some kind)
          (frame.load slot.toNat kind) := fun _ loaded => (Frame.load_eq_ok_iff.mp loaded).2.2
      refine loaded.bind fun value is_kind => ?_
      have pushed := Frame.push_trades balanced value (by rintro rfl; cases is_kind)
      rw [Value.width_of_kind? is_kind] at pushed
      exact pushed
  | store kind slot =>
      apply answers_proceed
      refine (Frame.popKind_takes balanced kind).bind fun popped taken => ?_
      obtain ⟨width_eq, taken⟩ := taken
      refine accords_store taken.trades ?_ ?_
      · rw [Frame.write?, taken.top_eq]
        rfl
      · rw [width_eq]
        rfl
  | iinc slot delta =>
      apply answers_proceed
      have loaded : Answers (fun value => frame.locals[slot.toNat]? = some value)
          (frame.load slot.toNat .int) := fun _ loaded => (Frame.load_eq_ok_iff.mp loaded).2.1
      refine loaded.bind fun value found => ?_
      cases value with
      | int value =>
          refine accords_store (.refl balanced) ?_ rfl
          rw [Frame.write?, found]
      | _ => exact .error _
  | intArithmetic op =>
      apply accords_proceed rfl
      refine (Frame.popInt_takes balanced).bind fun right taken => ?_
      refine (Frame.popInt_takes taken.trades.balanced).bind fun left taken' => ?_
      refine (Frame.push_trades taken'.trades.balanced _ (by simp)).imp fun after pushed => ?_
      exact (taken.trades.thenTrade taken'.trades).thenPut pushed
  | longArithmetic op =>
      apply accords_proceed rfl
      refine (Frame.popLong_takes balanced).bind fun right taken => ?_
      refine (Frame.popLong_takes taken.trades.balanced).bind fun left taken' => ?_
      refine (Frame.push_trades taken'.trades.balanced _ (by simp)).imp fun after pushed => ?_
      exact (taken.trades.thenTrade taken'.trades).thenPut pushed
  | dup =>
      apply accords_proceed rfl
      refine (Frame.popNarrow_takes balanced).bind fun popped taken => ?_
      obtain ⟨narrow, taken⟩ := taken
      refine (Frame.push_trades taken.trades.balanced _ taken.set).bind fun middle pushed => ?_
      refine (Frame.push_trades pushed.balanced _ taken.set).imp fun after pushed' => ?_
      have traded := (taken.trades.thenPut pushed).thenPut pushed'
      rw [narrow] at traded
      exact traded
  | pop =>
      apply accords_proceed rfl
      refine (Frame.popNarrow_takes balanced).map fun popped taken => ?_
      have traded := taken.2.trades
      rw [taken.1] at traded
      exact traded
  | pop2 =>
      apply accords_proceed rfl
      refine (Frame.pop_takes balanced).bind fun popped taken => ?_
      obtain ⟨value, rest⟩ := popped
      by_cases wide : value.width = 2
      · have traded := taken.trades
        rw [wide] at traded
        simp only [if_pos wide]
        exact .ok traded
      · simp only [if_neg wide]
        have narrow : value.width = 1 := by
          have := value.width_pos
          have := value.width_le_two
          omega
        refine (Frame.popNarrow_takes taken.trades.balanced).map fun popped' taken' => ?_
        have traded := taken.trades.thenTrade taken'.2.trades
        rw [narrow, taken'.1] at traded
        exact traded
  | swap =>
      apply accords_proceed rfl
      refine (Frame.popNarrow_takes balanced).bind fun upper taken => ?_
      obtain ⟨upper_narrow, taken⟩ := taken
      refine (Frame.popNarrow_takes taken.trades.balanced).bind fun lower taken' => ?_
      obtain ⟨lower_narrow, taken'⟩ := taken'
      refine (Frame.push_trades taken'.trades.balanced _ taken.set).bind fun middle pushed => ?_
      refine (Frame.push_trades pushed.balanced _ taken'.set).imp fun after pushed' => ?_
      have traded := ((taken.trades.thenTrade taken'.trades).thenPut pushed).thenPut pushed'
      rw [upper_narrow, lower_narrow] at traded
      exact traded
  | branchZero condition target =>
      apply accords_branch rfl
      exact (Frame.popInt_takes balanced).bind fun value taken => .ok taken.trades
  | branchCompare condition target =>
      apply accords_branch rfl
      refine (Frame.popInt_takes balanced).bind fun right taken => ?_
      refine (Frame.popInt_takes taken.trades.balanced).bind fun left taken' => ?_
      exact .ok (taken.trades.thenTrade taken'.trades)
  | goto target =>
      exact .ok ⟨balanced, fun _ => (Frame.Trades.refl balanced).exchanges, rfl, by simp⟩
  | getStatic field =>
      simp only [perform]
      split
      · change Answers _ (pushResult frame (some (.reference world.theConsole.2)))
        exact accords_pushResult rfl rfl balanced rfl (by simp)
      · exact .error _
  | new className => exact accords_proceed rfl (Frame.push_trades balanced _ (by simp))
  | invoke call called =>
      simp only [perform]
      have popped := Frame.popReversed_trades balanced [] called.type.parameters.reverse
      split
      · exact .error _
      · rename_i arguments rest found
        have taken := popped _ found
        exact invoke_accords arguments called call taken.1 taken.2
  | ret kind =>
      cases kind with
      | none =>
          exact .ok ⟨balanced, fun _ => (Frame.Trades.refl balanced).exchanges, rfl, by simp⟩
      | some kind =>
          simp only [perform]
          have popped := Frame.popKind_takes balanced kind
          split
          · exact .error _
          · rename_i value rest found
            obtain ⟨width_eq, taken⟩ := popped _ found
            have trades := taken.trades
            simp only at width_eq
            rw [taken.rest_eq, width_eq] at trades
            exact .ok ⟨trades.balanced, fun _ => trades.exchanges, trades.locals_eq,
              by simpa using taken.set⟩
  | athrow =>
      simp only [perform]
      split
      · exact .error _
      · exact .error _

end Instructions

/-! ## Runs -/

/-- The accounts of all activations are in order. -/
def State.Balanced (state : State) : Prop :=
  ∀ activation ∈ state.current :: state.callers,
    activation.frame.Balanced activation.body.method

section Runs

variable {setup : Setup} {world : World} {callers : List Activation}

theorem activate_balanced
    (balanced : ∀ activation ∈ callers, activation.frame.Balanced activation.body.method)
    (method : Method) (arguments : List Value) :
    (activate setup world callers method arguments).Meets State.Balanced fun _ _ => True := by
  have laid := Frame.layOut_balanced (Frame.balanced_empty method) 0 arguments
  unfold activate
  split
  · trivial
  · split
    · trivial
    · split
      · trivial
      · rename_i frame found
        exact List.forall_mem_cons.mpr ⟨laid frame found, balanced⟩

theorem resume_balanced
    (balanced : ∀ activation ∈ callers, activation.frame.Balanced activation.body.method)
    {value : Option Value} (set : value ≠ some .top) :
    (resume world value callers).Meets State.Balanced fun _ _ => True := by
  cases callers with
  | nil => trivial
  | cons caller rest =>
      obtain ⟨caller_balanced, rest_balanced⟩ := List.forall_mem_cons.mp balanced
      cases value with
      | none => exact List.forall_mem_cons.mpr ⟨caller_balanced, rest_balanced⟩
      | some value =>
          have pushed := Frame.push_trades caller_balanced value (by simpa using set)
          simp only [resume]
          split
          · trivial
          · rename_i frame found
            exact List.forall_mem_cons.mpr ⟨(pushed frame found).balanced, rest_balanced⟩

/-- A step keeps all accounts in order. -/
theorem step_balanced (setup : Setup) {state : State} (balanced : state.Balanced) :
    (step setup state).Meets State.Balanced fun _ _ => True := by
  obtain ⟨world, ⟨body, frame, index⟩, callers⟩ := state
  obtain ⟨current_balanced, callers_balanced⟩ := List.forall_mem_cons.mp balanced
  simp only [step]
  cases body.instruction? index with
  | none => trivial
  | some instruction =>
      have accords := perform_accords setup.file world current_balanced instruction
      simp only
      cases performed : perform setup.file world frame instruction with
      | mk after outcome =>
          rw [performed] at accords
          rcases outcome with (_ | _) | (next | ⟨next, target⟩ | ⟨next, callee, arguments⟩ | value)
          · trivial
          · trivial
          · exact List.forall_mem_cons.mpr ⟨(accords _ rfl).balanced, callers_balanced⟩
          · simp only
            split
            · trivial
            · exact List.forall_mem_cons.mpr ⟨(accords _ rfl).balanced, callers_balanced⟩
          · exact activate_balanced
              (List.forall_mem_cons.mpr ⟨(accords _ rfl).balanced, callers_balanced⟩) callee
              arguments
          · exact resume_balanced callers_balanced fun unset =>
              (accords _ rfl).answer (by rw [unset])

theorem Session.begin_balanced {session : Session} {name : String} {arguments : List Value}
    {progress : Progress} (begun : session.begin name arguments = some progress) :
    progress.Meets State.Balanced fun _ _ => True := by
  obtain ⟨method, -, ⟨-, rfl⟩ | ⟨-, rfl⟩⟩ := begin_cases begun
  · exact activate_balanced (by simp) method arguments
  · exact activate_balanced (by simp) method _

end Runs

namespace Session

end Session
end Machine
end MethodTracing
