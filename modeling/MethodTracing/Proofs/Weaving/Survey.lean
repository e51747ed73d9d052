import MethodTracing.Proofs.Verification.Exploration
import MethodTracing.Proofs.Weaving.Layout

/-!
# Surveys of woven bodies

A survey of a body becomes one of the woven body: the visits of the entry sequence, and for every
visit those of what stands for its instruction.  Injected sequences leave the depth as they find
it, so original instructions keep theirs.
-/

namespace MethodTracing
namespace Weaving

open Verification

variable {name : String} {startSlot endSlot : UInt16} {code : List Instruction}

/-- The visits of the woven body that stand for a visit of the original one. -/
def expand (exit code : List Instruction) (visit : Visit) : List Visit :=
  visits (offset code visit.index) visit.depth (group exit visit.instruction)

/-- The visits of a woven body, from those of the original one. -/
def tracedVisits (name : String) (startSlot endSlot : UInt16) (code : List Instruction)
    (seen : List Visit) : List Visit :=
  visits 0 0 (Trace.entryCode name startSlot) ++
    seen.flatMap (expand (Trace.exitCode name startSlot endSlot) code)

/-! ## The injected sequences -/

theorem final_entryCode (depth : Nat) : final depth (Trace.entryCode name startSlot) = depth := rfl

theorem final_exitCode (depth : Nat) :
    final depth (Trace.exitCode name startSlot endSlot) = depth := rfl

theorem final_group (depth : Nat) (instruction : Instruction) :
    final depth (group (Trace.exitCode name startSlot endSlot) instruction) =
      after depth instruction := by
  by_cases returns : instruction.isReturn
  · rw [group, if_pos returns, final_append, final_exitCode]
    rfl
  · rw [group, if_neg returns]
    rfl

/-- The entry sequence takes two slots at most. -/
theorem entryCode_after_le_iff {index depth bound : Nat} :
    (∀ visit ∈ visits index depth (Trace.entryCode name startSlot),
      after visit.depth visit.instruction ≤ bound) ↔ depth + 2 ≤ bound := by
  simp only [Trace.entryCode, visits, List.forall_mem_cons, after, Instruction.effect,
    ValueKind.width]
  simp [Trace.console, Trace.println, Trace.currentTimeMillis, CallKind.argumentSlots,
    CallKind.receiverSlots, MethodType.parameterSlots, MethodType.parameterWidth,
    MethodType.totalWidth, MethodType.resultSlots, FieldType.width, slotCeiling]
  omega

/-- The exit sequence takes four slots at most. -/
theorem exitCode_after_le_iff {index depth bound : Nat} :
    (∀ visit ∈ visits index depth (Trace.exitCode name startSlot endSlot),
      after visit.depth visit.instruction ≤ bound) ↔ depth + 4 ≤ bound := by
  simp only [Trace.exitCode, visits, List.forall_mem_cons, after, Instruction.effect,
    ValueKind.width]
  simp [Trace.console, Trace.println, Trace.currentTimeMillis, Trace.builderInit,
    Trace.builderAppend, Trace.builderText, CallKind.argumentSlots, CallKind.receiverSlots,
    MethodType.parameterSlots, MethodType.parameterWidth, MethodType.totalWidth,
    MethodType.resultSlots, FieldType.width, slotCeiling]
  omega

/-- The entry sequence never takes more than it put on the stack. -/
theorem entryCode_enough {index depth : Nat} :
    ∀ visit ∈ visits index depth (Trace.entryCode name startSlot),
      visit.instruction.effect.pops ≤ visit.depth := by
  simp only [Trace.entryCode, visits, List.forall_mem_cons, after, Instruction.effect,
    ValueKind.width]
  simp [Trace.console, Trace.println, Trace.currentTimeMillis, CallKind.argumentSlots,
    CallKind.receiverSlots, MethodType.parameterSlots, MethodType.parameterWidth,
    MethodType.totalWidth, MethodType.resultSlots, FieldType.width, slotCeiling]

/-- The exit sequence never takes more than it put on the stack. -/
theorem exitCode_enough {index depth : Nat} :
    ∀ visit ∈ visits index depth (Trace.exitCode name startSlot endSlot),
      visit.instruction.effect.pops ≤ visit.depth := by
  simp only [Trace.exitCode, visits, List.forall_mem_cons, after, Instruction.effect,
    ValueKind.width]
  simp [Trace.console, Trace.println, Trace.currentTimeMillis, Trace.builderInit,
    Trace.builderAppend, Trace.builderText, CallKind.argumentSlots, CallKind.receiverSlots,
    MethodType.parameterSlots, MethodType.parameterWidth, MethodType.totalWidth,
    MethodType.resultSlots, FieldType.width, slotCeiling]

/-- The entry sequence uses the start time only. -/
theorem entryCode_locals_le_iff {index depth bound : Nat} :
    (∀ visit ∈ visits index depth (Trace.entryCode name startSlot),
      localsOf visit.instruction ≤ bound) ↔ startSlot.toNat + 2 ≤ bound := by
  simp [Trace.entryCode, visits, localsOf, Instruction.access?, LocalAccess.stop, ValueKind.width]

/-- The exit sequence uses both times. -/
theorem exitCode_locals_le_iff {index depth bound : Nat} :
    (∀ visit ∈ visits index depth (Trace.exitCode name startSlot endSlot),
      localsOf visit.instruction ≤ bound) ↔
        startSlot.toNat + 2 ≤ bound ∧ endSlot.toNat + 2 ≤ bound := by
  simp [Trace.exitCode, visits, localsOf, Instruction.access?, LocalAccess.stop, ValueKind.width]

/-! ## Visits of a group -/

/-- Only the last instruction of a group can break the line. -/
theorem group_unbroken {instruction inserted : Instruction} {place : Nat}
    (inserted_at : (group (Trace.exitCode name startSlot endSlot) instruction)[place]? =
      some inserted)
    (more : place + 1 < (group (Trace.exitCode name startSlot endSlot) instruction).length) :
    inserted.breaks = false := by
  by_cases returns : instruction.isReturn
  · rw [length_group, if_pos returns] at more
    rw [group, if_pos returns, List.getElem?_append_left (by simp; omega)] at inserted_at
    exact exitCode_unbroken _ (List.mem_of_getElem? inserted_at)
  · rw [length_group, if_neg returns] at more
    omega

/-- What stands for a visit ends with it; the exit sequence comes before if it is a return. -/
theorem expand_eq (visit : Visit) :
    expand (Trace.exitCode name startSlot endSlot) code visit =
      (if visit.instruction.isReturn then
        visits (offset code visit.index) visit.depth (Trace.exitCode name startSlot endSlot)
      else []) ++
        [⟨offset code visit.index + if visit.instruction.isReturn then 16 else 0, visit.depth,
          visit.instruction⟩] := by
  by_cases returns : visit.instruction.isReturn
  · rw [expand, group, if_pos returns, if_pos returns, if_pos returns, visits_append,
      final_exitCode]
    rfl
  · rw [expand, group, if_neg returns, if_neg returns, if_neg returns]
    rfl

/-! ## The survey of a woven body -/

/-- What stands for a visit is reached from its first instruction on. -/
theorem reached_of_mem_expand {visit inserted : Visit}
    (found : code[visit.index]? = some visit.instruction)
    (reached : Reached (traced name startSlot endSlot code) (offset code visit.index) visit.depth)
    (member : inserted ∈ expand (Trace.exitCode name startSlot endSlot) code visit) :
    Reached (traced name startSlot endSlot code) inserted.index inserted.depth :=
  reached_of_run (getElem?_group found) group_unbroken reached member

/-- The visit itself stands in its group, at its position. -/
theorem mem_expand_self {visit : Visit} (found : code[visit.index]? = some visit.instruction) :
    ⟨position code visit.index, visit.depth, visit.instruction⟩ ∈
      expand (Trace.exitCode name startSlot endSlot) code visit := by
  rw [expand_eq, position_eq found]
  exact List.mem_append_right _ (List.mem_singleton_self _)

/-- Where what stands for an instruction is reached, the instruction is reached at its position. -/
theorem reached_position {index depth : Nat} {instruction : Instruction}
    (found : code[index]? = some instruction)
    (reached : Reached (traced name startSlot endSlot code) (offset code index) depth) :
    Reached (traced name startSlot endSlot code) (position code index) depth :=
  have member : ⟨position code index, depth, instruction⟩ ∈
      expand (Trace.exitCode name startSlot endSlot) code ⟨index, depth, instruction⟩ :=
    mem_expand_self found
  reached_of_mem_expand found reached member

/-- The entry sequence is passed at the start. -/
theorem reached_of_mem_entry {visit : Visit}
    (member : visit ∈ visits 0 0 (Trace.entryCode name startSlot)) :
    Reached (traced name startSlot endSlot code) visit.index visit.depth := by
  refine reached_of_run ?_ ?_ .start member
  · intro place instruction inserted_at
    rw [Nat.zero_add, getElem?_entry (List.getElem?_eq_some_iff.mp inserted_at).1]
    exact inserted_at
  · intro place instruction inserted_at _
    exact entryCode_unbroken _ (List.mem_of_getElem? inserted_at)

/-- Behind the entry sequence comes what stands for the first instruction. -/
theorem passes_entry (inhabited : code ≠ []) {target : Nat} :
    Flow.Passes (traced name startSlot endSlot code) 4 target ↔ target = offset code 0 := by
  have last_at : (traced name startSlot endSlot code)[4]? = some (.store .long startSlot) :=
    getElem?_entry (by omega)
  have longer : 5 < (traced name startSlot endSlot code).length := by
    rw [length_traced, ← offset_zero code]
    exact offset_lt_offset (List.length_pos_iff.mpr inhabited)
  rw [Flow.passes_iff_of_not_breaks last_at (by rfl), offset_zero]
  omega

/-- Original instructions are reached at the depth at which they were reached before. -/
theorem reached_offset (inhabited : code ≠ []) (labelled : Flow.WellLabelled code)
    {index depth : Nat} (reached : Reached code index depth) :
    Reached (traced name startSlot endSlot code) (offset code index) depth := by
  induction reached with
  | start =>
      have member : (⟨4, 2, .store .long startSlot⟩ : Visit) ∈
          visits 0 0 (Trace.entryCode name startSlot) := mem_visits.mpr ⟨4, rfl, rfl, rfl⟩
      have last : Reached (traced name startSlot endSlot code) 4 2 := reached_of_mem_entry member
      exact last.pass (getElem?_entry (by omega)) ((passes_entry inhabited).mpr rfl)
  | @pass index depth target instruction _ found passes ih =>
      exact (reached_position found ih).pass (getElem?_position found)
        ((passes_position_iff labelled found).mpr ⟨target, passes, rfl⟩)

variable {limits : FrameLimits} {seen : List Visit}

/-- Visits of a woven body stand where it has their instructions. -/
theorem getElem?_of_mem_tracedVisits (survey : Survey limits code seen) :
    ∀ visit ∈ tracedVisits name startSlot endSlot code seen,
      (traced name startSlot endSlot code)[visit.index]? = some visit.instruction := by
  intro visit member
  rcases List.mem_append.mp member with in_entry | in_groups
  · obtain ⟨place, index_eq, found, -⟩ := mem_visits.mp in_entry
    rw [index_eq, Nat.zero_add, getElem?_entry (List.getElem?_eq_some_iff.mp found).1]
    exact found
  · obtain ⟨source, source_seen, in_group⟩ := List.mem_flatMap.mp in_groups
    obtain ⟨place, index_eq, found, -⟩ := mem_visits.mp in_group
    rw [index_eq]
    exact getElem?_group ((survey.mem_iff source).mp source_seen).2 found

/-- A visit of the original body is followed in the woven one by what stands for the next visit. -/
theorem exists_expanded (survey : Survey limits code seen) (inhabited : code ≠ [])
    {index depth : Nat} (reached : Reached code index depth) :
    ∃ next ∈ tracedVisits name startSlot endSlot code seen,
      next.index = offset code index ∧ next.depth = depth := by
  obtain ⟨instruction, found⟩ : ∃ instruction, code[index]? = some instruction :=
    ⟨_, List.getElem?_eq_getElem (reached.lt_length inhabited)⟩
  have source_seen := (survey.mem_iff ⟨index, depth, instruction⟩).mpr ⟨reached, found⟩
  obtain ⟨next, member, index_eq, depth_eq⟩ := exists_visit (offset code index) depth
    (show 0 < (group (Trace.exitCode name startSlot endSlot) instruction).length by
      rw [length_group]
      omega)
  exact ⟨next, List.mem_append_right _ (List.mem_flatMap.mpr ⟨_, source_seen, member⟩), index_eq,
    depth_eq⟩

/-- The visits of a woven body hold one for each way on from them. -/
theorem tracedVisits_closed (survey : Survey limits code seen) (inhabited : code ≠ [])
    (labelled : Flow.WellLabelled code) :
    ∀ visit ∈ tracedVisits name startSlot endSlot code seen, ∀ target,
      Flow.Passes (traced name startSlot endSlot code) visit.index target →
        ∃ next ∈ tracedVisits name startSlot endSlot code seen,
          next.index = target ∧ next.depth = after visit.depth visit.instruction := by
  intro visit member target passes
  have visit_at : (traced name startSlot endSlot code)[visit.index]? = some visit.instruction :=
    getElem?_of_mem_tracedVisits survey visit member
  rcases List.mem_append.mp member with in_entry | in_groups
  · obtain ⟨place, index_eq, found, -⟩ := mem_visits.mp in_entry
    have place_lt : place < 5 := (List.getElem?_eq_some_iff.mp found).1
    by_cases last : place = 4
    · rw [index_eq, last, Nat.zero_add, passes_entry inhabited] at passes
      rw [passes, after_last_visit in_entry (by simp; omega), final_entryCode]
      exact exists_expanded survey inhabited .start
    · rw [Flow.passes_iff_of_not_breaks visit_at
        (entryCode_unbroken _ (List.mem_of_getElem? found))] at passes
      obtain ⟨next, next_member, next_index, next_depth⟩ :=
        exists_next_visit in_entry (by simp; omega)
      exact ⟨next, List.mem_append_left _ next_member, by rw [next_index, passes.1], next_depth⟩
  · obtain ⟨source, source_seen, in_group⟩ := List.mem_flatMap.mp in_groups
    obtain ⟨source_reached, source_at⟩ := (survey.mem_iff source).mp source_seen
    obtain ⟨place, index_eq, found, -⟩ := mem_visits.mp in_group
    have place_lt := (List.getElem?_eq_some_iff.mp found).1
    by_cases last : place + 1 = (group (Trace.exitCode name startSlot endSlot)
        source.instruction).length
    · rw [after_last_visit in_group (by omega), final_group]
      have at_position : visit.index = position code source.index := by
        rw [index_eq, position_eq source_at]
        rw [length_group] at last
        omega
      rw [at_position, passes_position_iff labelled source_at] at passes
      obtain ⟨next, source_passes, rfl⟩ := passes
      exact exists_expanded survey inhabited (source_reached.pass source_at source_passes)
    · rw [Flow.passes_iff_of_not_breaks visit_at (group_unbroken found (by omega))] at passes
      obtain ⟨next, next_member, next_index, next_depth⟩ :=
        exists_next_visit in_group (by omega)
      exact ⟨next,
        List.mem_append_right _ (List.mem_flatMap.mpr ⟨source, source_seen, next_member⟩),
        by rw [next_index, passes.1], next_depth⟩

/-- What stands for a visit stands before what stands for the next instruction. -/
theorem index_of_mem_expand {visit inserted : Visit}
    (found : code[visit.index]? = some visit.instruction)
    (member : inserted ∈ expand (Trace.exitCode name startSlot endSlot) code visit) :
    offset code visit.index ≤ inserted.index ∧ inserted.index < offset code (visit.index + 1) := by
  obtain ⟨place, index_eq, inserted_at, -⟩ := mem_visits.mp member
  have place_lt := (List.getElem?_eq_some_iff.mp inserted_at).1
  have next_eq : offset code (visit.index + 1) = offset code visit.index +
      (group (Trace.exitCode name startSlot endSlot) visit.instruction).length :=
    offset_succ_eq found
  omega

/-- No index of a woven body is visited twice. -/
theorem tracedVisits_distinct (survey : Survey limits code seen) :
    ((tracedVisits name startSlot endSlot code seen).map Visit.index).Nodup := by
  have found : ∀ visit ∈ seen, code[visit.index]? = some visit.instruction :=
    fun visit member => ((survey.mem_iff visit).mp member).2
  rw [tracedVisits, List.map_append, List.map_flatMap, List.nodup_append', List.nodup_flatMap]
  refine ⟨?_, ⟨?_, ?_⟩, ?_⟩
  · rw [map_index_visits]
    exact List.nodup_range'
  · intro source _
    rw [expand, map_index_visits]
    exact List.nodup_range'
  · apply (List.pairwise_map.mp survey.distinct).imp_of_mem
    intro first second first_seen second_seen different index in_first in_second
    obtain ⟨left, left_member, rfl⟩ := List.mem_map.mp in_first
    obtain ⟨right, right_member, same⟩ := List.mem_map.mp in_second
    obtain ⟨first_le, lt_first⟩ := index_of_mem_expand (found first first_seen) left_member
    obtain ⟨second_le, lt_second⟩ := index_of_mem_expand (found second second_seen) right_member
    rcases Nat.lt_or_gt_of_ne different with before | behind
    · have := offset_le_offset code (show first.index + 1 ≤ second.index from before)
      omega
    · have := offset_le_offset code (show second.index + 1 ≤ first.index from behind)
      omega
  · intro index in_entry in_groups
    rw [map_index_visits, List.mem_range'_1] at in_entry
    obtain ⟨source, source_seen, in_group⟩ := List.mem_flatMap.mp in_groups
    obtain ⟨inserted, member, rfl⟩ := List.mem_map.mp in_group
    obtain ⟨source_le, -⟩ := index_of_mem_expand (found source source_seen) member
    have := offset_le_offset code (Nat.zero_le source.index)
    rw [offset_zero] at this
    simp only [Trace.length_entryCode] at in_entry
    omega

/-- Reached depths keep to the limit. -/
theorem depth_le_of_reached (survey : Survey limits code seen) {index depth : Nat}
    (reached : Reached code index depth) : depth ≤ limits.maxStack := by
  cases reached with
  | start => exact Nat.zero_le _
  | pass earlier found _ => exact (survey.fits_of_reached earlier found).room

/-- The woven body keeps to limits that leave room for the injected sequences. -/
theorem tracedVisits_fits (survey : Survey limits code seen) {raised : FrameLimits}
    (stack_room : limits.maxStack + 4 ≤ raised.maxStack)
    (locals_room : limits.maxLocals ≤ raised.maxLocals)
    (start_inside : startSlot.toNat + 2 ≤ raised.maxLocals)
    (end_inside : endSlot.toNat + 2 ≤ raised.maxLocals) :
    ∀ visit ∈ tracedVisits name startSlot endSlot code seen,
      Fits raised visit.depth visit.instruction := by
  intro visit member
  rcases List.mem_append.mp member with in_entry | in_groups
  · exact ⟨entryCode_enough visit in_entry,
      entryCode_after_le_iff.mpr (by omega) visit in_entry,
      entryCode_locals_le_iff.mpr start_inside visit in_entry⟩
  · obtain ⟨source, source_seen, in_group⟩ := List.mem_flatMap.mp in_groups
    rw [expand_eq] at in_group
    rcases List.mem_append.mp in_group with in_exit | same
    · have depth_le := depth_le_of_reached survey ((survey.mem_iff source).mp source_seen).1
      split at in_exit
      · exact ⟨exitCode_enough visit in_exit,
          exitCode_after_le_iff.mpr (by omega) visit in_exit,
          exitCode_locals_le_iff.mpr ⟨start_inside, end_inside⟩ visit in_exit⟩
      · simp at in_exit
    · obtain rfl := List.mem_singleton.mp same
      obtain ⟨enough, room, inside⟩ := survey.fits source source_seen
      exact ⟨enough, by simp only; omega, by simp only; omega⟩

/-- A survey of a body that fits its limits becomes one of the woven body, under limits that leave
room for the injected sequences. -/
theorem survey_traced (survey : Survey limits code seen) (inhabited : code ≠ [])
    (labelled : Flow.WellLabelled code) {raised : FrameLimits}
    (stack_room : limits.maxStack + 4 ≤ raised.maxStack)
    (locals_room : limits.maxLocals ≤ raised.maxLocals)
    (start_inside : startSlot.toNat + 2 ≤ raised.maxLocals)
    (end_inside : endSlot.toNat + 2 ≤ raised.maxLocals) :
    Survey raised (traced name startSlot endSlot code)
      (tracedVisits name startSlot endSlot code seen) := by
  refine ⟨fun visit => ⟨fun member => ⟨?_, getElem?_of_mem_tracedVisits survey visit member⟩,
    ?_⟩, tracedVisits_distinct survey,
    tracedVisits_fits survey stack_room locals_room start_inside end_inside⟩
  · rcases List.mem_append.mp member with in_entry | in_groups
    · exact reached_of_mem_entry in_entry
    · obtain ⟨source, source_seen, in_group⟩ := List.mem_flatMap.mp in_groups
      obtain ⟨source_reached, source_at⟩ := (survey.mem_iff source).mp source_seen
      exact reached_of_mem_expand source_at (reached_offset inhabited labelled source_reached)
        in_group
  · rintro ⟨reached, found⟩
    refine Survey.exists_visit_of_closed ?_ (getElem?_of_mem_tracedVisits survey)
      (tracedVisits_closed survey inhabited labelled) reached found
    exact ⟨⟨0, 0, .getStatic Trace.console⟩,
      List.mem_append_left _ (by simp [visits, Trace.entryCode]), rfl, rfl⟩

end Weaving
end MethodTracing
