import MethodTracing.Machine.Step

/-!
# Transfers of control

Where an instruction can lead, whatever it finds on the operand stack and in the world.
-/

namespace MethodTracing
namespace Machine

/-- Where the kind of an instruction allows it to lead. -/
def Transfer.Suits (file : ClassFile) (instruction : Instruction) : Transfer → Prop
  | .next _ => instruction.endsBlock = false
  | .jump _ target => instruction.branchTarget? = some target
  | .call _ callee _ =>
      ∃ method, instruction = .invoke .direct method ∧ instruction.readsClock = false ∧
        file.callee? method = some callee
  | .leave _ => instruction.isReturn

variable {file : ClassFile} {world : World} {frame : Frame}

/-- A return leads nowhere in its own body. -/
theorem Transfer.Suits.not_isReturn {instruction : Instruction} {transfer : Transfer}
    (suits : transfer.Suits file instruction) (stays : ∀ value, transfer ≠ .leave value) :
    instruction.isReturn = false := by
  cases transfer with
  | leave value => exact absurd rfl (stays value)
  | _ => cases instruction <;> simp_all [Transfer.Suits, Instruction.branchTarget?,
      Instruction.endsBlock, Instruction.isReturn]

theorem suits_proceed {instruction : Instruction} {change : Except Fault Frame}
    {transfer : Transfer} (goes_on : instruction.endsBlock = false)
    (transferred : proceed change = .ok transfer) : transfer.Suits file instruction := by
  cases change with
  | ok frame =>
      obtain rfl := Except.ok.inj transferred
      exact goes_on
  | error fault => simp [proceed] at transferred

theorem suits_branch {instruction : Instruction} {test : Except Fault (Bool × Frame)}
    {target : Label} {transfer : Transfer} (goes_on : instruction.endsBlock = false)
    (branches : instruction.branchTarget? = some target)
    (transferred : branch target test = .ok transfer) : transfer.Suits file instruction := by
  cases test with
  | ok answer =>
      obtain ⟨holds, frame⟩ := answer
      cases holds with
      | true =>
          obtain rfl := Except.ok.inj transferred
          exact branches
      | false =>
          obtain rfl := Except.ok.inj transferred
          exact goes_on
  | error fault => simp [branch] at transferred

theorem suits_pushResult {instruction : Instruction} {value : Option Value} {transfer : Transfer}
    (goes_on : instruction.endsBlock = false)
    (transferred : pushResult frame value = .ok transfer) : transfer.Suits file instruction := by
  cases value with
  | none =>
      obtain rfl := Except.ok.inj transferred
      exact goes_on
  | some value => exact suits_proceed goes_on transferred

theorem suits_invoke {arguments : List Value} {method : MethodRef} {call : CallKind}
    {transfer : Transfer}
    (transferred : (invoke file world frame arguments method call).2 = .ok transfer) :
    transfer.Suits file (.invoke call method) := by
  cases call with
  | special =>
      simp only [invoke] at transferred
      split at transferred
      · simp at transferred
      · split at transferred
        · obtain rfl := Except.ok.inj transferred
          rfl
        · simp at transferred
  | virtual =>
      simp only [invoke] at transferred
      split at transferred
      · simp at transferred
      · split at transferred
        · simp at transferred
        · exact suits_pushResult rfl transferred
  | direct =>
      simp only [invoke] at transferred
      split at transferred
      · have pushed : pushResult frame (some (.long world.clock.now)) = .ok transfer := transferred
        exact suits_pushResult rfl pushed
      · rename_i not_clock
        split at transferred
        · split at transferred
          · rename_i callee found
            obtain rfl := Except.ok.inj transferred
            exact ⟨method, rfl, by simpa [Instruction.readsClock] using not_clock, found⟩
          · simp at transferred
        · simp at transferred

/-- An instruction leads where its kind allows. -/
theorem suits_perform {instruction : Instruction} {transfer : Transfer}
    (transferred : (perform file world frame instruction).2 = .ok transfer) :
    transfer.Suits file instruction := by
  cases instruction with
  | label | nop =>
      obtain rfl := Except.ok.inj transferred
      rfl
  | iconst | lconst | ldc | load | store | iinc | intArithmetic | longArithmetic | dup | pop | pop2
  | swap | new => exact suits_proceed rfl transferred
  | branchZero | branchCompare => exact suits_branch rfl rfl transferred
  | goto target =>
      obtain rfl := Except.ok.inj transferred
      rfl
  | getStatic field =>
      simp only [perform] at transferred
      split at transferred
      · exact suits_proceed rfl transferred
      · simp at transferred
  | invoke call method =>
      simp only [perform] at transferred
      split at transferred
      · simp at transferred
      · exact suits_invoke transferred
  | ret kind =>
      cases kind with
      | none =>
          obtain rfl := Except.ok.inj transferred
          rfl
      | some kind =>
          simp only [perform] at transferred
          split at transferred
          · simp at transferred
          · obtain rfl := Except.ok.inj transferred
            rfl
  | athrow =>
      simp only [perform] at transferred
      split at transferred <;> simp at transferred

/-- An instruction that neither breaks the line nor calls a method of the class goes on or fails. -/
theorem next_of_perform {instruction : Instruction} {transfer : Transfer}
    (straight : instruction.branchTarget? = none) (stays : instruction.isReturn = false)
    (calls_none : ∀ method, instruction = .invoke .direct method → instruction.readsClock = true)
    (transferred : (perform file world frame instruction).2 = .ok transfer) :
    ∃ frame, transfer = .next frame := by
  have suits := suits_perform transferred
  cases transfer with
  | next frame => exact ⟨frame, rfl⟩
  | jump frame target => simp [Transfer.Suits, straight] at suits
  | call frame callee arguments =>
      obtain ⟨method, same, not_clock, -⟩ := suits
      simp [calls_none method same] at not_clock
  | leave value => simp [Transfer.Suits, stays] at suits

end Machine
end MethodTracing
