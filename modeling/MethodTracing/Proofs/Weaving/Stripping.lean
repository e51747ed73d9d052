import MethodTracing.Proofs.Weaving.Layout

/-!
# Stripping woven bodies

The entry sequence is taken off the front of a body, and the exit sequence is taken out wherever a
reading from left to right comes upon it.  It begins at no instruction of the original body: its
second instruction reads the start time from a slot that the original body does not access.

Main statement: what is left of an instrumented method is the body that it had.
-/

namespace MethodTracing
namespace Weaving

/-- What is left of code when a sequence is taken out wherever it occurs, from left to right. -/
def takeOut (sequence : List Instruction) : List Instruction → List Instruction
  | [] => []
  | instruction :: rest =>
      if sequence.isPrefixOf (instruction :: rest) then
        takeOut sequence (rest.drop (sequence.length - 1))
      else instruction :: takeOut sequence rest
termination_by code => code.length
decreasing_by
  · simp only [List.length_drop, List.length_cons]
    omega
  · simp

section TakeOut

variable {sequence code : List Instruction} {instruction : Instruction}

@[simp]
theorem takeOut_nil (sequence : List Instruction) : takeOut sequence [] = [] := by
  rw [takeOut]

theorem takeOut_append (inhabited : sequence ≠ []) (code : List Instruction) :
    takeOut sequence (sequence ++ code) = takeOut sequence code := by
  obtain ⟨first, later, rfl⟩ := List.exists_cons_of_ne_nil inhabited
  have occurs : (first :: later).isPrefixOf (first :: (later ++ code)) :=
    List.isPrefixOf_iff_prefix.mpr (List.prefix_append (first :: later) code)
  rw [List.cons_append, takeOut, if_pos occurs, List.length_cons, Nat.add_sub_cancel,
    List.drop_left]

theorem takeOut_cons (absent : ¬sequence <+: instruction :: code) :
    takeOut sequence (instruction :: code) = instruction :: takeOut sequence code := by
  rw [takeOut, if_neg (List.isPrefixOf_iff_prefix.not.mpr absent)]

end TakeOut

/-! ## Code with a sequence before every return -/

section Guarded

variable {first second : Instruction} {later code : List Instruction}

theorem head?_guarded {exit code : List Instruction} {instruction : Instruction}
    (leads : (guarded exit code).head? = some instruction) :
    exit.head? = some instruction ∨ instruction ∈ code := by
  cases code with
  | nil => simp [guarded] at leads
  | cons front rest =>
      simp only [guarded, List.flatMap_cons, group] at leads
      by_cases returns : front.isReturn
      · cases exit with
        | nil =>
            right
            simp_all
        | cons head tail =>
            left
            simpa [returns] using leads
      · right
        simp_all

/-- A sequence whose second instruction the code lacks begins at no instruction of the code, neither
among the others nor across a place where the sequence was put in. -/
theorem not_prefix_guarded (apart : first ≠ second) (fresh : second ∉ code)
    (instruction : Instruction) :
    ¬first :: second :: later <+: instruction :: guarded (first :: second :: later) code := by
  intro begins
  obtain ⟨-, second_begins⟩ := List.cons_prefix_cons.mp begins
  have leads : (guarded (first :: second :: later) code).head? = some second := by
    obtain ⟨rest, code_eq⟩ := second_begins
    rw [← code_eq]
    rfl
  rcases head?_guarded leads with same | member
  · exact apart (Option.some.inj same)
  · exact fresh member

/-- Taking the sequence out again leaves the code. -/
theorem takeOut_guarded (apart : first ≠ second) (fresh : second ∉ code) :
    takeOut (first :: second :: later) (guarded (first :: second :: later) code) = code := by
  induction code with
  | nil => exact takeOut_nil _
  | cons instruction rest ih =>
      rw [List.mem_cons, not_or] at fresh
      have kept : takeOut (first :: second :: later)
          (instruction :: guarded (first :: second :: later) rest) = instruction :: rest := by
        rw [takeOut_cons (not_prefix_guarded apart fresh.2 instruction), ih fresh.2]
      simp only [guarded, List.flatMap_cons] at kept ⊢
      by_cases returns : instruction.isReturn
      · rw [group, if_pos returns, List.append_assoc, takeOut_append (List.cons_ne_nil _ _)]
        exact kept
      · rw [group, if_neg returns]
        exact kept

end Guarded

/-- Code within a number of locals does not read a `long` from past them. -/
theorem load_not_mem {code : List Instruction} {slot : UInt16}
    (within : ∀ instruction ∈ code, ∀ access, instruction.access? = some access →
      access.stop ≤ slot.toNat) :
    .load .long slot ∉ code := by
  intro member
  have stops : slot.toNat + 2 ≤ slot.toNat := within _ member _ rfl
  omega

end Weaving

namespace Method

/-- What is left of a body in which the times are kept from the slot `maxLocals` on, once the entry
sequence is taken off and the exit sequences are taken out; none if it does not begin with the entry
sequence. -/
def strip? (woven : Method) (maxLocals : UInt16) : Option (List Instruction) :=
  let entry := (Trace.entrySequence woven.declaration.name maxLocals).instructions
  let exit :=
    (Trace.exitSequence woven.declaration.name maxLocals (maxLocals + 2)).instructions
  if entry.isPrefixOf woven.instructions then
    some (Weaving.takeOut exit (woven.instructions.drop entry.length))
  else none

theorem strip?_traced {woven : Method} {maxLocals : UInt16} {code : List Instruction}
    (within : ∀ instruction ∈ code, ∀ access, instruction.access? = some access →
      access.stop ≤ maxLocals.toNat)
    (instructions_eq : woven.instructions =
      Weaving.traced woven.declaration.name maxLocals (maxLocals + 2) code) :
    woven.strip? maxLocals = some code := by
  have entered : (Trace.entryCode woven.declaration.name maxLocals).isPrefixOf
      woven.instructions := by
    rw [instructions_eq, List.isPrefixOf_iff_prefix]
    exact List.prefix_append _ _
  simp only [strip?, Trace.entrySequence, Trace.exitSequence, Sequence.instructions_ofList,
    if_pos entered]
  rw [instructions_eq, Weaving.traced, List.drop_left]
  exact congrArg some (Weaving.takeOut_guarded (by simp) (Weaving.load_not_mem within))

/-- Stripping an instrumented method gives back its body, whatever the body calls or prints, if no
instruction of the body accesses a local past the declared ones. -/
theorem strip?_instrument {method after : Method} {weave : Weave}
    (within : ∀ instruction ∈ method.instructions, ∀ access, instruction.access? = some access →
      access.stop ≤ method.maxLocals.toNat)
    (woven : method.instrument = ⟨after, .ok weave⟩) :
    after.strip? method.maxLocals = some method.instructions := by
  obtain ⟨instrumented, declaration_eq, -⟩ := instrument_eq_ok woven
  have start_eq : weave.plan.startSlot = method.maxLocals :=
    UInt16.toNat_inj.mp instrumented.startSlot
  have end_eq : weave.plan.endSlot = method.maxLocals + 2 := by
    have below := weave.plan.endSlot.toNat_lt
    rw [instrumented.endSlot] at below
    rw [← UInt16.toNat_inj, instrumented.endSlot, UInt16.toNat_add]
    exact (Nat.mod_eq_of_lt below).symm
  apply strip?_traced within
  rw [instrumented.instructions, start_eq, end_eq, declaration_eq]

/-- A method whose body was woven before, with its times in other slots, and reads the time once more
before it returns. -/
def rewoven : Method :=
  { declaration :=
      { owner := "Echo", name := "again", type := some ⟨[], some .long⟩, access := ⟨0x0008⟩
        kind := .function, annotations := .empty }
    instructions :=
      Trace.entryCode "again" 0 ++ Trace.exitCode "again" 0 2 ++
        [.invoke .direct Trace.currentTimeMillis, .ret (some .long), .ret (some .long)]
    maxStack := 4
    maxLocals := 4 }

theorem strip?_instrument_rewoven :
    (∀ instruction ∈ rewoven.instructions, ∀ access, instruction.access? = some access →
      access.stop ≤ rewoven.maxLocals.toNat) ∧
    rewoven.instrument = ⟨rewoven.instrument.method, .ok ⟨⟨4, 6, 4, 8, 8⟩, 2⟩⟩ ∧
    rewoven.instrument.method.strip? 4 = some rewoven.instructions :=
  have within : ∀ instruction ∈ rewoven.instructions, ∀ access,
      instruction.access? = some access → access.stop ≤ rewoven.maxLocals.toNat := by
    simp [rewoven, Trace.entryCode, Trace.exitCode, Instruction.access?, LocalAccess.stop,
      ValueKind.width]
  have outcome : rewoven.instrument.outcome = .ok ⟨⟨4, 6, 4, 8, 8⟩, 2⟩ := by decide +kernel
  have woven : rewoven.instrument = ⟨rewoven.instrument.method, .ok ⟨⟨4, 6, 4, 8, 8⟩, 2⟩⟩ := by
    rw [← outcome]
  ⟨within, woven, strip?_instrument within woven⟩

end Method
end MethodTracing
