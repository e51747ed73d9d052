import Mathlib.Data.List.Nodup
import MethodTracing.Proofs.Flow.Blocks
import MethodTracing.Verification

/-!
# Stack depths along paths

The depths at which control reaches each index of a body, read off the paths themselves, and what a
walk over a straight run of instructions records.  A survey lists every reached instruction once,
with its depth; it is what a successful verification amounts to.
-/

namespace MethodTracing
namespace Verification

/-- The depth that an instruction leaves. -/
def after (depth : Nat) (instruction : Instruction) : Nat :=
  depth - instruction.effect.pops + instruction.effect.pushes

/-- One past the highest local that an instruction accesses, or zero. -/
def localsOf (instruction : Instruction) : Nat :=
  (instruction.access?.map LocalAccess.stop).getD 0

/-- Control can reach an index of a body with the stack at a depth. -/
inductive Reached (code : List Instruction) : Nat → Nat → Prop
  | start : Reached code 0 0
  | pass {index depth target : Nat} {instruction : Instruction} :
      Reached code index depth → code[index]? = some instruction → Flow.Passes code index target →
        Reached code target (after depth instruction)

/-- An instruction that is reached at a depth keeps to the limits of the frame. -/
structure Fits (limits : FrameLimits) (depth : Nat) (instruction : Instruction) : Prop where
  /-- The stack holds what the instruction takes. -/
  enough : instruction.effect.pops ≤ depth
  /-- The depth that it leaves is allowed. -/
  room : after depth instruction ≤ limits.maxStack
  /-- The local that it accesses exists. -/
  inside : localsOf instruction ≤ limits.maxLocals

/-- Reached indices of a non-empty body hold an instruction. -/
theorem Reached.lt_length {code : List Instruction} {index depth : Nat} (inhabited : code ≠ [])
    (reached : Reached code index depth) : index < code.length := by
  cases reached with
  | start => exact List.length_pos_iff.mpr inhabited
  | pass _ _ passes =>
      obtain ⟨_, _, ⟨_, _, in_range⟩ | ⟨label, _, placed⟩⟩ := passes
      · exact in_range
      · exact (List.getElem?_eq_some_iff.mp (Flow.labelPosition?_eq_some_iff.mp placed).1).1

/-! ## Walks -/

/-- An instruction on a walk, with its index and the depth at which it is met. -/
structure Visit where
  /-- Index of the instruction. -/
  index : Nat
  /-- Depth before it. -/
  depth : Nat
  /-- The instruction. -/
  instruction : Instruction
  deriving DecidableEq

/-- The visits of a walk over a run of instructions that begins at `index`. -/
def visits (index depth : Nat) : List Instruction → List Visit
  | [] => []
  | instruction :: rest =>
      ⟨index, depth, instruction⟩ :: visits (index + 1) (after depth instruction) rest

/-- The depth at the end of a run of instructions. -/
def final (depth : Nat) (code : List Instruction) : Nat :=
  code.foldl after depth

/-- What a body uses of its frame after further visits. -/
def tally (usage : FrameUsage) (seen : List Visit) : FrameUsage :=
  seen.foldl (fun usage visit =>
    usage.record (after visit.depth visit.instruction) (localsOf visit.instruction)) usage

@[simp]
theorem final_nil (depth : Nat) : final depth [] = depth := rfl

@[simp]
theorem final_cons (depth : Nat) (instruction : Instruction) (rest : List Instruction) :
    final depth (instruction :: rest) = final (after depth instruction) rest := rfl

theorem final_append (depth : Nat) (left right : List Instruction) :
    final depth (left ++ right) = final (final depth left) right :=
  List.foldl_append

theorem tally_append (usage : FrameUsage) (left right : List Visit) :
    tally usage (left ++ right) = tally (tally usage left) right :=
  List.foldl_append

theorem visits_append (index depth : Nat) (left right : List Instruction) :
    visits index depth (left ++ right) =
      visits index depth left ++ visits (index + left.length) (final depth left) right := by
  induction left generalizing index depth with
  | nil => rfl
  | cons first rest ih =>
      simp only [List.cons_append, visits, ih, List.length_cons, final_cons]
      rw [show index + 1 + rest.length = index + (rest.length + 1) by omega]

/-- The visits of a walk are the instructions of the run, each at the depth that those before it
leave. -/
theorem mem_visits {index depth : Nat} {code : List Instruction} {visit : Visit} :
    visit ∈ visits index depth code ↔
      ∃ offset, visit.index = index + offset ∧ code[offset]? = some visit.instruction ∧
        visit.depth = final depth (code.take offset) := by
  induction code generalizing index depth with
  | nil => simp [visits]
  | cons first rest ih =>
      simp only [visits, List.mem_cons, ih]
      constructor
      · rintro (rfl | ⟨offset, index_eq, found, depth_eq⟩)
        · exact ⟨0, by simp⟩
        · exact ⟨offset + 1, by omega, by simpa using found, by simpa using depth_eq⟩
      · rintro ⟨offset, index_eq, found, depth_eq⟩
        cases offset with
        | zero =>
            obtain ⟨visit_index, visit_depth, visit_instruction⟩ := visit
            simp_all
        | succ offset =>
            exact Or.inr ⟨offset, by omega, by simpa using found, by simpa using depth_eq⟩

theorem final_take_succ {depth offset : Nat} {code : List Instruction} {instruction : Instruction}
    (found : code[offset]? = some instruction) :
    final depth (code.take (offset + 1)) = after (final depth (code.take offset)) instruction := by
  rw [List.take_add_one, found, final_append]
  rfl

/-- A walk visits each instruction of its run. -/
theorem exists_visit (index depth : Nat) {offset : Nat} {code : List Instruction}
    (in_range : offset < code.length) :
    ∃ visit ∈ visits index depth code, visit.index = index + offset ∧
      visit.depth = final depth (code.take offset) :=
  ⟨⟨_, _, _⟩, mem_visits.mpr ⟨offset, rfl, List.getElem?_eq_getElem in_range, rfl⟩, rfl, rfl⟩

/-- A visit that is not the last of its walk is followed by one at the depth that it leaves. -/
theorem exists_next_visit {index depth : Nat} {code : List Instruction} {visit : Visit}
    (member : visit ∈ visits index depth code) (more : visit.index + 1 < index + code.length) :
    ∃ next ∈ visits index depth code, next.index = visit.index + 1 ∧
      next.depth = after visit.depth visit.instruction := by
  obtain ⟨offset, index_eq, found, depth_eq⟩ := mem_visits.mp member
  obtain ⟨next, next_member, next_index, next_depth⟩ :=
    exists_visit index depth (show offset + 1 < code.length by omega)
  refine ⟨next, next_member, by omega, ?_⟩
  rw [next_depth, final_take_succ found, depth_eq]

/-- The last visit of a walk leaves the depth at its end. -/
theorem after_last_visit {index depth : Nat} {code : List Instruction} {visit : Visit}
    (member : visit ∈ visits index depth code) (last : visit.index + 1 = index + code.length) :
    after visit.depth visit.instruction = final depth code := by
  obtain ⟨offset, index_eq, found, depth_eq⟩ := mem_visits.mp member
  have whole : code.take (offset + 1) = code := List.take_of_length_le (by omega)
  rw [depth_eq, ← final_take_succ found, whole]

/-- Whatever a walk visits is reached, if its run stands in the body from a reached index on and no
instruction before the last one ends a block. -/
theorem reached_of_run {code run : List Instruction} {index depth : Nat}
    (placed : ∀ {offset : Nat} {instruction : Instruction}, run[offset]? = some instruction →
      code[index + offset]? = some instruction)
    (unbroken : ∀ {offset : Nat} {instruction : Instruction}, run[offset]? = some instruction →
      offset + 1 < run.length → instruction.breaks = false)
    (reached : Reached code index depth) {visit : Visit}
    (member : visit ∈ visits index depth run) : Reached code visit.index visit.depth := by
  obtain ⟨offset, index_eq, found, depth_eq⟩ := mem_visits.mp member
  rw [index_eq, depth_eq]
  clear index_eq depth_eq
  have offset_lt := (List.getElem?_eq_some_iff.mp found).1
  clear found
  induction offset with
  | zero => exact reached
  | succ offset ih =>
      have here := List.getElem?_eq_getElem (show offset < run.length by omega)
      have next_placed := placed (List.getElem?_eq_getElem offset_lt)
      have passes : Flow.Passes code (index + offset) (index + (offset + 1)) :=
        (Flow.passes_iff_of_not_breaks (placed here) (unbroken here offset_lt)).mpr
          ⟨rfl, (List.getElem?_eq_some_iff.mp next_placed).1⟩
      rw [final_take_succ here]
      exact .pass (ih (by omega)) (placed here) passes

theorem map_index_visits (index depth : Nat) (code : List Instruction) :
    (visits index depth code).map Visit.index = List.range' index code.length := by
  induction code generalizing index depth with
  | nil => rfl
  | cons first rest ih => simp [visits, ih, List.range'_succ]

theorem pass_eq_ok_iff {limits : FrameLimits} {index depth : Nat} {usage : FrameUsage}
    {instruction : Instruction} {answer : Nat × FrameUsage} :
    pass limits index depth usage instruction = .ok answer ↔
      Fits limits depth instruction ∧
        answer = (after depth instruction,
          usage.record (after depth instruction) (localsOf instruction)) := by
  have fits_iff : Fits limits depth instruction ↔ instruction.effect.pops ≤ depth ∧
      after depth instruction ≤ limits.maxStack ∧ localsOf instruction ≤ limits.maxLocals :=
    ⟨fun fits => ⟨fits.enough, fits.room, fits.inside⟩,
      fun within => ⟨within.1, within.2.1, within.2.2⟩⟩
  rw [fits_iff]
  simp only [pass]
  split
  · rename_i short
    simp [Nat.not_le.mpr short]
  · rename_i enough
    split
    · rename_i high
      simp [after, Nat.not_le.mpr high]
    · rename_i room
      have enough := Nat.not_lt.mp enough
      have room := Nat.not_lt.mp room
      cases accessed : instruction.access? with
      | none => simp [after, localsOf, accessed, enough, room, eq_comm]
      | some access =>
          by_cases outside : limits.maxLocals < access.stop
          · simp [localsOf, accessed, outside, Nat.not_le.mpr outside]
          · simp [after, localsOf, accessed, enough, room, outside, Nat.not_lt.mp outside, eq_comm]

/-- A walk succeeds exactly if every instruction fits at the depth where it is met. -/
theorem walk_eq_ok_iff {limits : FrameLimits} {index depth : Nat} {usage : FrameUsage}
    {code : List Instruction} {answer : Nat × FrameUsage} :
    walk limits index depth usage code = .ok answer ↔
      (∀ visit ∈ visits index depth code, Fits limits visit.depth visit.instruction) ∧
        answer = (final depth code, tally usage (visits index depth code)) := by
  induction code generalizing index depth usage with
  | nil => simp [walk, visits, tally, eq_comm]
  | cons first rest ih =>
      simp only [walk, visits, List.forall_mem_cons, final_cons]
      cases passed : pass limits index depth usage first with
      | error cause =>
          have unfit : ¬Fits limits depth first := fun fits => by
            rw [pass_eq_ok_iff.mpr ⟨fits, rfl⟩] at passed
            simp at passed
          simp [unfit]
      | ok answer' =>
          obtain ⟨fits, rfl⟩ := pass_eq_ok_iff.mp passed
          simp [ih, fits, tally]

/-- A walk that fails meets an instruction that does not fit. -/
theorem exists_unfit_of_walk {limits : FrameLimits} {index depth : Nat} {usage : FrameUsage}
    {code : List Instruction} {cause : VerifyError}
    (failed : walk limits index depth usage code = .error cause) :
    ∃ visit ∈ visits index depth code, ¬Fits limits visit.depth visit.instruction := by
  by_contra all_fit
  push Not at all_fit
  rw [walk_eq_ok_iff.mpr ⟨all_fit, rfl⟩] at failed
  simp at failed

/-! ## Tallies -/

theorem tally_perm {usage : FrameUsage} {left right : List Visit} (same : left.Perm right) :
    tally usage left = tally usage right := by
  apply same.foldl_eq'
  intro first _ second _ usage
  simp [FrameUsage.record, Nat.max_comm (after first.depth first.instruction),
    Nat.max_comm (localsOf first.instruction)]

theorem reachable_tally (usage : FrameUsage) (seen : List Visit) :
    (tally usage seen).reachable = usage.reachable + seen.length := by
  induction seen generalizing usage with
  | nil => rfl
  | cons visit rest ih =>
      have tail := ih (usage.record (after visit.depth visit.instruction)
        (localsOf visit.instruction))
      simp only [FrameUsage.record] at tail
      simp only [tally, List.foldl_cons, List.length_cons] at tail ⊢
      rw [FrameUsage.record, tail]
      omega

theorem maxDepth_tally_le_iff (usage : FrameUsage) {seen : List Visit} {bound : Nat} :
    (tally usage seen).maxDepth ≤ bound ↔
      usage.maxDepth ≤ bound ∧ ∀ visit ∈ seen, after visit.depth visit.instruction ≤ bound := by
  induction seen generalizing usage with
  | nil => simp [tally]
  | cons visit rest ih =>
      have tail := ih (usage.record (after visit.depth visit.instruction)
        (localsOf visit.instruction))
      simp only [tally, List.foldl_cons, List.forall_mem_cons] at tail ⊢
      rw [tail]
      simp only [FrameUsage.record, Nat.max_le, and_assoc]

theorem localsUsed_tally_le_iff (usage : FrameUsage) {seen : List Visit} {bound : Nat} :
    (tally usage seen).localsUsed ≤ bound ↔
      usage.localsUsed ≤ bound ∧ ∀ visit ∈ seen, localsOf visit.instruction ≤ bound := by
  induction seen generalizing usage with
  | nil => simp [tally]
  | cons visit rest ih =>
      have tail := ih (usage.record (after visit.depth visit.instruction)
        (localsOf visit.instruction))
      simp only [tally, List.foldl_cons, List.forall_mem_cons] at tail ⊢
      rw [tail]
      simp only [FrameUsage.record, Nat.max_le, and_assoc]

/-! ## Surveys -/

/-- A list of all visits that control can make to a body, one for each reached index, each within
the limits. -/
structure Survey (limits : FrameLimits) (code : List Instruction) (seen : List Visit) : Prop where
  /-- The visits are those that control can make. -/
  mem_iff : ∀ visit : Visit, visit ∈ seen ↔
    Reached code visit.index visit.depth ∧ code[visit.index]? = some visit.instruction
  /-- No index is visited twice. -/
  distinct : (seen.map Visit.index).Nodup
  /-- Every instruction keeps to the limits. -/
  fits : ∀ visit ∈ seen, Fits limits visit.depth visit.instruction

namespace Survey

variable {limits : FrameLimits} {code : List Instruction} {seen : List Visit}

theorem nodup (survey : Survey limits code seen) : seen.Nodup :=
  List.Nodup.of_map Visit.index survey.distinct

/-- Visits that hold the first instruction and, with a visit, one for each way on from it, hold
everything that is reached. -/
theorem exists_visit_of_closed (start : ∃ visit ∈ seen, visit.index = 0 ∧ visit.depth = 0)
    (found : ∀ visit ∈ seen, code[visit.index]? = some visit.instruction)
    (closed : ∀ visit ∈ seen, ∀ target, Flow.Passes code visit.index target →
      ∃ next ∈ seen, next.index = target ∧ next.depth = after visit.depth visit.instruction)
    {visit : Visit} (reached : Reached code visit.index visit.depth)
    (instruction_at : code[visit.index]? = some visit.instruction) : visit ∈ seen := by
  have visited : ∀ {index depth : Nat}, Reached code index depth →
      ∃ visit ∈ seen, visit.index = index ∧ visit.depth = depth := by
    intro index depth reached
    induction reached with
    | start => exact start
    | pass _ instruction_at passes ih =>
        obtain ⟨visit, member, rfl, rfl⟩ := ih
        obtain rfl := Option.some.inj ((found visit member).symm.trans instruction_at)
        exact closed visit member _ passes
  obtain ⟨other, member, index_eq, depth_eq⟩ := visited reached
  have other_at := found other member
  rw [index_eq, instruction_at] at other_at
  obtain ⟨index, depth, instruction⟩ := visit
  obtain ⟨otherIndex, otherDepth, otherInstruction⟩ := other
  simp_all

theorem perm {other : List Visit} (survey : Survey limits code seen)
    (other_survey : Survey limits code other) : seen.Perm other := by
  rw [List.perm_ext_iff_of_nodup survey.nodup other_survey.nodup]
  intro visit
  rw [survey.mem_iff, other_survey.mem_iff]

theorem fits_of_reached (survey : Survey limits code seen) {index depth : Nat}
    {instruction : Instruction} (reached : Reached code index depth)
    (found : code[index]? = some instruction) : Fits limits depth instruction :=
  survey.fits ⟨index, depth, instruction⟩ ((survey.mem_iff _).mpr ⟨reached, found⟩)

/-- Every reached index of a surveyed body has one depth. -/
theorem depth_unique (survey : Survey limits code seen) (inhabited : code ≠ [])
    {index first second : Nat} (reached_first : Reached code index first)
    (reached_second : Reached code index second) : first = second := by
  have found := List.getElem?_eq_getElem (reached_first.lt_length inhabited)
  have first_seen := (survey.mem_iff ⟨index, first, _⟩).mpr ⟨reached_first, found⟩
  have second_seen := (survey.mem_iff ⟨index, second, _⟩).mpr ⟨reached_second, found⟩
  have same := List.inj_on_of_nodup_map survey.distinct first_seen second_seen rfl
  exact congrArg Visit.depth same

end Survey

end Verification
end MethodTracing
