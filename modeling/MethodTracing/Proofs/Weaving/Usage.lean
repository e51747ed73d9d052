import MethodTracing.Proofs.Verification.Assignments
import MethodTracing.Proofs.Weaving.Survey

/-!
# Frame usage of woven bodies

Main statement: a woven method verifies if the method did before, and what it then uses of its frame
follows from what it used before and from the depths of the returns that control can reach.
-/

namespace MethodTracing
namespace Verification

/-- The indices of the returns that control can reach. -/
noncomputable def reachedReturns (code : List Instruction) : Finset Nat :=
  open Classical in
  (Finset.range code.length).filter fun index =>
    (∃ instruction, code[index]? = some instruction ∧ instruction.isReturn) ∧
      ∃ depth, Reached code index depth

theorem mem_reachedReturns {code : List Instruction} {index : Nat} :
    index ∈ reachedReturns code ↔
      (∃ instruction, code[index]? = some instruction ∧ instruction.isReturn) ∧
        ∃ depth, Reached code index depth := by
  classical
  simp only [reachedReturns, Finset.mem_filter, Finset.mem_range, and_iff_right_iff_imp]
  rintro ⟨⟨instruction, found, -⟩, -⟩
  exact (List.getElem?_eq_some_iff.mp found).1

namespace Survey

variable {limits : FrameLimits} {code : List Instruction} {seen : List Visit}

/-- The depth before a visited instruction is that of its visit. -/
theorem depthBefore_eq (survey : Survey limits code seen) (inhabited : code ≠ []) {visit : Visit}
    (member : visit ∈ seen) : depthBefore code visit.index = visit.depth :=
  (survey.consistent inhabited).depthBefore_eq ((survey.mem_iff visit).mp member).1

/-- The reached returns are the visited ones. -/
theorem mem_reachedReturns_iff (survey : Survey limits code seen) {index : Nat} :
    index ∈ reachedReturns code ↔
      ∃ visit ∈ seen, visit.instruction.isReturn ∧ visit.index = index := by
  rw [mem_reachedReturns]
  constructor
  · rintro ⟨⟨instruction, found, returns⟩, depth, reached⟩
    exact ⟨⟨index, depth, instruction⟩, (survey.mem_iff _).mpr ⟨reached, found⟩, returns, rfl⟩
  · rintro ⟨visit, member, returns, rfl⟩
    obtain ⟨reached, found⟩ := (survey.mem_iff visit).mp member
    exact ⟨⟨visit.instruction, found, returns⟩, visit.depth, reached⟩

theorem card_reachedReturns (survey : Survey limits code seen) :
    (reachedReturns code).card = seen.countP fun visit => visit.instruction.isReturn := by
  have same : reachedReturns code =
      ((seen.filter fun visit => visit.instruction.isReturn).map Visit.index).toFinset := by
    ext index
    simp [survey.mem_reachedReturns_iff, and_assoc]
  have distinct : ((seen.filter fun visit => visit.instruction.isReturn).map Visit.index).Nodup :=
    survey.distinct.sublist (List.filter_sublist.map Visit.index)
  rw [same, List.toFinset_card_of_nodup distinct, List.length_map, List.countP_eq_length_filter]

/-- The room that injected sequences take before the reached returns, above any bound. -/
theorem sup_reachedReturns_le_iff (survey : Survey limits code seen) (inhabited : code ≠ [])
    {extra bound : Nat} :
    ((reachedReturns code).sup fun index => depthBefore code index + extra) ≤ bound ↔
      ∀ visit ∈ seen, visit.instruction.isReturn → visit.depth + extra ≤ bound := by
  rw [Finset.sup_le_iff]
  constructor
  · intro all_le visit member returns
    have := all_le visit.index (survey.mem_reachedReturns_iff.mpr ⟨visit, member, returns, rfl⟩)
    rwa [survey.depthBefore_eq inhabited member] at this
  · intro all_le index index_mem
    obtain ⟨visit, member, returns, rfl⟩ := survey.mem_reachedReturns_iff.mp index_mem
    rw [survey.depthBefore_eq inhabited member]
    exact all_le visit member returns

end Survey
end Verification

namespace Weaving

open Verification

variable {name : String} {startSlot endSlot : UInt16} {code : List Instruction}
  {limits : FrameLimits} {seen : List Visit}

/-! ## Tallies of woven bodies -/

theorem length_tracedVisits (seen : List Visit) :
    (tracedVisits name startSlot endSlot code seen).length =
      seen.length + 5 + 16 * seen.countP fun visit => visit.instruction.isReturn := by
  have length_visits (index depth : Nat) (run : List Instruction) :
      (visits index depth run).length = run.length := by
    have := congrArg List.length (map_index_visits index depth run)
    simpa using this
  simp only [tracedVisits, List.length_append, length_visits, Trace.length_entryCode]
  induction seen with
  | nil => rfl
  | cons visit rest ih =>
      rw [List.flatMap_cons, List.length_append, expand, length_visits, length_group,
        List.length_cons, List.countP_cons]
      split <;> omega

/-- What holds of everything that stands for visits: it holds of the visited instructions, and of
the exit sequences before returns. -/
theorem forall_expand_iff (name : String) (startSlot endSlot : UInt16) (code : List Instruction)
    (visit : Visit) (test : Nat → Instruction → Prop) :
    (∀ inserted ∈ expand (Trace.exitCode name startSlot endSlot) code visit,
      test inserted.depth inserted.instruction) ↔
    test visit.depth visit.instruction ∧ (visit.instruction.isReturn →
      ∀ inserted ∈ visits (offset code visit.index) visit.depth
        (Trace.exitCode name startSlot endSlot), test inserted.depth inserted.instruction) := by
  rw [expand_eq]
  by_cases returns : visit.instruction.isReturn
  · simp [returns, or_imp, forall_and, and_comm]
  · simp [returns]

theorem maxDepth_traced_le_iff {usage : FrameUsage} {bound : Nat} :
    (tally usage (tracedVisits name startSlot endSlot code seen)).maxDepth ≤ bound ↔
      (tally usage seen).maxDepth ≤ bound ∧ 2 ≤ bound ∧
        ∀ visit ∈ seen, visit.instruction.isReturn → visit.depth + 4 ≤ bound := by
  simp only [maxDepth_tally_le_iff, tracedVisits, List.forall_mem_append, List.forall_mem_flatMap,
    entryCode_after_le_iff, Nat.zero_add]
  have groups (visit : Visit) := forall_expand_iff name startSlot endSlot code visit
    fun depth instruction => after depth instruction ≤ bound
  simp only [groups, exitCode_after_le_iff]
  constructor
  · rintro ⟨base, entry, rest⟩
    exact ⟨⟨base, fun visit member => (rest visit member).1⟩, entry,
      fun visit member => (rest visit member).2⟩
  · rintro ⟨⟨base, visited⟩, entry, returning⟩
    exact ⟨base, entry, fun visit member => ⟨visited visit member, returning visit member⟩⟩

theorem localsUsed_traced_le_iff {usage : FrameUsage} {bound : Nat} :
    (tally usage (tracedVisits name startSlot endSlot code seen)).localsUsed ≤ bound ↔
      (tally usage seen).localsUsed ≤ bound ∧ startSlot.toNat + 2 ≤ bound ∧
        ∀ visit ∈ seen, visit.instruction.isReturn → endSlot.toNat + 2 ≤ bound := by
  simp only [localsUsed_tally_le_iff, tracedVisits, List.forall_mem_append,
    List.forall_mem_flatMap, entryCode_locals_le_iff]
  have groups (visit : Visit) := forall_expand_iff name startSlot endSlot code visit
    fun _ instruction => localsOf instruction ≤ bound
  simp only [groups, exitCode_locals_le_iff]
  constructor
  · rintro ⟨base, entry, rest⟩
    exact ⟨⟨base, fun visit member => (rest visit member).1⟩, entry,
      fun visit member returns => ((rest visit member).2 returns).2⟩
  · rintro ⟨⟨base, visited⟩, entry, returning⟩
    exact ⟨base, entry, fun visit member => ⟨visited visit member, fun returns =>
      ⟨entry, returning visit member returns⟩⟩⟩

end Weaving

namespace Method

open Verification

/-- A method that verifies verifies once it is instrumented.  The injected sequences add what they
take themselves, at the depths of the reached returns, and every return is counted. -/
theorem verify_instrumented {method instrumented : Method} {usage : FrameUsage} {weave : Weave}
    (inhabited : method.instructions ≠ []) (verified : method.verify = .ok usage)
    (woven : method.instrument = ⟨instrumented, .ok weave⟩) :
    instrumented.verify = .ok
      { maxDepth := max (max usage.maxDepth 2) ((reachedReturns method.instructions).sup
          fun index => depthBefore method.instructions index + 4)
        localsUsed :=
          if (reachedReturns method.instructions).Nonempty then weave.plan.endSlot.toNat + 2
          else weave.plan.startSlot.toNat + 2
        reachable := usage.reachable + 5 + 16 * (reachedReturns method.instructions).card } ∧
      weave.exitSites = method.returnCount := by
  obtain ⟨traced, declaration_eq, sites_eq⟩ := instrument_eq_ok woven
  refine ⟨?_, sites_eq⟩
  obtain ⟨arguments_fit, labelled, ends, seen, survey, rfl⟩ :=
    (verify_eq_ok_iff inhabited).mp verified
  have raised_stack : instrumented.limits.maxStack = method.limits.maxStack + 4 := traced.maxStack
  have raised_locals : instrumented.limits.maxLocals = method.limits.maxLocals + 4 :=
    traced.maxLocals
  have start_eq : weave.plan.startSlot.toNat = method.limits.maxLocals := traced.startSlot
  have end_eq : weave.plan.endSlot.toNat = method.limits.maxLocals + 2 := traced.endSlot
  have body_eq := traced.instructions
  rw [verify_eq_ok_iff (body_eq ▸ Weaving.traced_ne_nil), body_eq, declaration_eq]
  refine ⟨by omega, Weaving.wellLabelled_traced labelled, ?_, _,
    Weaving.survey_traced survey inhabited labelled (by omega) (by omega) (by omega) (by omega), ?_⟩
  · rw [FlowGraph.fallsOffEnd_ofCode] at ends ⊢
    rwa [Weaving.getLast?_traced inhabited]
  · rw [FrameUsage.mk.injEq]
    refine ⟨?_, ?_, ?_⟩
    · apply eq_of_forall_ge_iff
      intro bound
      rw [Weaving.maxDepth_traced_le_iff, Nat.max_le, Nat.max_le,
        survey.sup_reachedReturns_le_iff inhabited, and_assoc]
    · apply eq_of_forall_ge_iff
      intro bound
      rw [Weaving.localsUsed_traced_le_iff]
      have inside : (tally ⟨0, method.declaration.argumentSlots, 0⟩ seen).localsUsed ≤
          method.limits.maxLocals :=
        (localsUsed_tally_le_iff _).mpr
          ⟨arguments_fit, fun visit member => (survey.fits visit member).inside⟩
      split
      · rename_i returning
        obtain ⟨index, member⟩ := returning
        obtain ⟨visit, visit_seen, returns, -⟩ := survey.mem_reachedReturns_iff.mp member
        constructor
        · exact fun end_le => ⟨by omega, by omega, fun _ _ _ => end_le⟩
        · rintro ⟨-, -, all_le⟩
          exact all_le visit visit_seen returns
      · rename_i none_returning
        constructor
        · refine fun start_le => ⟨by omega, start_le, fun visit member returns => ?_⟩
          have returning := survey.mem_reachedReturns_iff.mpr ⟨visit, member, returns, rfl⟩
          exact absurd ⟨visit.index, returning⟩ none_returning
        · rintro ⟨-, start_le, -⟩
          exact start_le
    · rw [reachable_tally, reachable_tally, Weaving.length_tracedVisits,
        survey.card_reachedReturns]
      simp only
      omega

/-- A loop back to the first instruction, with returns at two depths and one out of reach. -/
def countdown : Method :=
  { declaration :=
      { owner := "Loop", name := "count", type := some ⟨[.int], some .long⟩, access := ⟨0x0008⟩
        kind := .function, annotations := .empty }
    instructions :=
      [.label ⟨0⟩, .load .int 0, .branchZero .le ⟨1⟩, .iinc 0 (-1), .goto ⟨0⟩, .ret none,
        .label ⟨1⟩, .lconst 7, .load .int 0, .branchZero .eq ⟨2⟩, .ret (some .long),
        .label ⟨2⟩, .iconst 1, .ret (some .int)]
    maxStack := 3
    maxLocals := 1 }

theorem verify_instrumented_countdown :
    countdown.instructions ≠ [] ∧ countdown.verify = .ok ⟨3, 1, 13⟩ ∧
      countdown.instrument = ⟨countdown.instrument.method, .ok ⟨⟨1, 3, 4, 5, 7⟩, 3⟩⟩ ∧
      countdown.instrument.method.verify = .ok
        { maxDepth := max (max 3 2) ((reachedReturns countdown.instructions).sup
            fun index => depthBefore countdown.instructions index + 4)
          localsUsed := if (reachedReturns countdown.instructions).Nonempty then 5 else 3
          reachable := 13 + 5 + 16 * (reachedReturns countdown.instructions).card } ∧
      3 = countdown.returnCount :=
  have inhabited : countdown.instructions ≠ [] := by decide
  have verified : countdown.verify = .ok ⟨3, 1, 13⟩ := by decide +kernel
  have outcome : countdown.instrument.outcome = .ok ⟨⟨1, 3, 4, 5, 7⟩, 3⟩ := by decide +kernel
  have woven : countdown.instrument =
      ⟨countdown.instrument.method, .ok ⟨⟨1, 3, 4, 5, 7⟩, 3⟩⟩ := by rw [← outcome]
  ⟨inhabited, verified, woven, verify_instrumented inhabited verified woven⟩

end Method
end MethodTracing
