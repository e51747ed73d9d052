import Mathlib.Data.Finset.Lattice.Fold
import Mathlib.Data.Fintype.Basic
import Mathlib.Logic.Relation
import Mathlib.Order.Lattice.Nat
import MethodTracing.Proofs.Verification.Exploration

/-!
# Assignments of stack depths

An assignment gives each instruction that control can reach one depth of the stack, from which every
step that control can take leads to the depth assigned to its target.  No order in which blocks are
walked, and no path, occurs in it.

Main statement: a method verifies if and only if its body has an assignment within its limits, and
its use of the frame is read off the assignment.
-/

namespace MethodTracing

/-- Control can get from the first instruction of a body to an index. -/
def Flow.Reaches (code : List Instruction) (index : Nat) : Prop :=
  Relation.ReflTransGen (Passes code) 0 index

namespace Verification

variable {limits : FrameLimits} {code : List Instruction} {depth : Nat → Nat}

/-- Control reaches an index if it does so at some depth. -/
theorem reaches_iff {index : Nat} :
    Flow.Reaches code index ↔ ∃ depth, Reached code index depth := by
  constructor
  · intro reaches
    induction reaches with
    | refl => exact ⟨0, .start⟩
    | tail _ passing ih =>
        obtain ⟨depth, reached⟩ := ih
        obtain ⟨instruction, found, -⟩ := id passing
        exact ⟨after depth instruction, .pass reached found passing⟩
  · rintro ⟨depth, reached⟩
    induction reached with
    | start => exact .refl
    | pass _ _ passing ih => exact ih.tail passing

/-! ## Assignments -/

/-- Depths that can stand before the instructions of a body whatever way control takes to them. -/
structure Assignment (limits : FrameLimits) (code : List Instruction) (depth : Nat → Nat) :
    Prop where
  /-- The stack is empty at first. -/
  start : depth 0 = 0
  /-- Reached instructions keep to the limits. -/
  fits : ∀ {index : Nat} {instruction : Instruction}, Flow.Reaches code index →
    code[index]? = some instruction → Fits limits (depth index) instruction
  /-- The depth that a reached instruction leaves stands before those that follow it. -/
  passes : ∀ {index target : Nat} {instruction : Instruction}, Flow.Reaches code index →
    code[index]? = some instruction → Flow.Passes code index target →
      depth target = after (depth index) instruction

/-- Control reaches instructions at the depths assigned to them only. -/
theorem Assignment.depth_of_reached (assigned : Assignment limits code depth)
    {index current : Nat} (reached : Reached code index current) : depth index = current := by
  induction reached with
  | start => exact assigned.start
  | pass reached found passing ih =>
      rw [assigned.passes (reaches_iff.mpr ⟨_, reached⟩) found passing, ih]

theorem Assignment.consistent (assigned : Assignment limits code depth) :
    Consistent limits code where
  fits reached found := by
    rw [← assigned.depth_of_reached reached]
    exact assigned.fits (reaches_iff.mpr ⟨_, reached⟩) found
  unique first second := by
    rw [← assigned.depth_of_reached first, assigned.depth_of_reached second]

/-- The depth before an instruction; in a verified body there is at most one. -/
noncomputable def depthBefore (code : List Instruction) (index : Nat) : Nat :=
  sInf {depth | Reached code index depth}

theorem Consistent.depthBefore_eq (consistent : Consistent limits code) {index depth : Nat}
    (reached : Reached code index depth) : depthBefore code index = depth := by
  have only : {depth | Reached code index depth} = {depth} := by
    ext other
    exact ⟨fun other_reached => consistent.unique other_reached reached, fun same => same ▸ reached⟩
  rw [depthBefore, only]
  exact csInf_singleton _

/-- The depths at which control reaches the instructions of a body form an assignment if no two of
them are at odds. -/
theorem Consistent.assignment (consistent : Consistent limits code) :
    Assignment limits code (depthBefore code) where
  start := consistent.depthBefore_eq .start
  fits reaches found := by
    obtain ⟨depth, reached⟩ := reaches_iff.mp reaches
    rw [consistent.depthBefore_eq reached]
    exact consistent.fits reached found
  passes reaches found passing := by
    obtain ⟨depth, reached⟩ := reaches_iff.mp reaches
    rw [consistent.depthBefore_eq reached, consistent.depthBefore_eq (.pass reached found passing)]

/-- Exploring a body whose depths are not at odds surveys it. -/
theorem Consistent.exists_survey (consistent : Consistent limits code) (inhabited : code ≠ []) :
    ∃ seen, Survey limits code seen := by
  rcases explore_cases inhabited ⟨0, 0, 0⟩ _ _ [] (Explored.initial inhabited) rfl with
    ⟨seen, -, survey⟩ | ⟨-, inconsistent⟩
  · exact ⟨seen, survey⟩
  · exact absurd consistent inconsistent

/-! ## Use of the frame -/

/-- The indices of the instructions that control can reach. -/
noncomputable def reachable (code : List Instruction) : Finset (Fin code.length) :=
  open Classical in Finset.univ.filter fun index => Flow.Reaches code index

/-- What a body that gets `arguments` slots uses of its frame if the depths before its instructions
are as assigned. -/
noncomputable def assignedUsage (arguments : Nat) (code : List Instruction) (depth : Nat → Nat) :
    FrameUsage where
  maxDepth := (reachable code).sup fun index => after (depth index) code[index]
  localsUsed := max arguments ((reachable code).sup fun index => localsOf code[index])
  reachable := (reachable code).card

theorem mem_reachable {index : Fin code.length} :
    index ∈ reachable code ↔ Flow.Reaches code index := by
  simp [reachable]

@[simp]
theorem assignedUsage_nil (arguments : Nat) (depth : Nat → Nat) :
    assignedUsage arguments [] depth = ⟨0, arguments, 0⟩ := by
  have none_reached : reachable [] = ∅ :=
    Finset.eq_empty_of_forall_notMem fun index => index.elim0
  simp [assignedUsage, none_reached]

namespace Survey

variable {seen : List Visit}

/-- A survey visits the instructions that control can reach, at the depths assigned to them. -/
theorem mem_iff_of_assignment (survey : Survey limits code seen)
    (assigned : Assignment limits code depth) {visit : Visit} :
    visit ∈ seen ↔ ∃ index ∈ reachable code, visit = ⟨index, depth index, code[index]⟩ := by
  rw [survey.mem_iff]
  constructor
  · rintro ⟨reached, found⟩
    obtain ⟨in_range, instruction_eq⟩ := List.getElem?_eq_some_iff.mp found
    refine ⟨⟨visit.index, in_range⟩, mem_reachable.mpr (reaches_iff.mpr ⟨_, reached⟩), ?_⟩
    rw [assigned.depth_of_reached reached]
    simp only [Fin.getElem_fin, instruction_eq]
  · rintro ⟨index, member, rfl⟩
    obtain ⟨other, reached⟩ := reaches_iff.mp (mem_reachable.mp member)
    rw [assigned.depth_of_reached reached]
    exact ⟨reached, List.getElem?_eq_getElem index.isLt⟩

theorem card_reachable (survey : Survey limits code seen)
    (assigned : Assignment limits code depth) : (reachable code).card = seen.length := by
  have same : (reachable code).map Fin.valEmbedding = (seen.map Visit.index).toFinset := by
    ext index
    simp only [Finset.mem_map, Fin.valEmbedding_apply, List.mem_toFinset, List.mem_map,
      survey.mem_iff_of_assignment assigned]
    constructor
    · rintro ⟨place, member, rfl⟩
      exact ⟨_, ⟨place, member, rfl⟩, rfl⟩
    · rintro ⟨visit, ⟨place, member, rfl⟩, rfl⟩
      exact ⟨place, member, rfl⟩
  rw [← Finset.card_map Fin.valEmbedding, same, List.toFinset_card_of_nodup survey.distinct,
    List.length_map]

/-- The tally of a survey is what any assignment says of the frame. -/
theorem tally_eq (survey : Survey limits code seen) (assigned : Assignment limits code depth)
    (arguments : Nat) : tally ⟨0, arguments, 0⟩ seen = assignedUsage arguments code depth := by
  have visits_iff (test : Visit → Prop) : (∀ visit ∈ seen, test visit) ↔
      ∀ index ∈ reachable code, test ⟨index, depth index, code[index]⟩ := by
    simp only [survey.mem_iff_of_assignment assigned]
    exact ⟨fun all index member => all _ ⟨index, member, rfl⟩,
      fun all _ ⟨index, member, visit_eq⟩ => visit_eq ▸ all index member⟩
  rw [assignedUsage, FrameUsage.mk.injEq]
  refine ⟨?_, ?_, ?_⟩
  · apply eq_of_forall_ge_iff
    intro bound
    rw [maxDepth_tally_le_iff, visits_iff, Finset.sup_le_iff]
    simp
  · apply eq_of_forall_ge_iff
    intro bound
    rw [localsUsed_tally_le_iff, visits_iff, Nat.max_le, Finset.sup_le_iff]
  · rw [reachable_tally, survey.card_reachable assigned, Nat.zero_add]

end Survey

end Verification

namespace Method

open Verification

/-- An empty body verifies if the arguments fit, and uses nothing else. -/
theorem verify_of_empty {method : Method} (empty : method.instructions = []) {usage : FrameUsage} :
    method.verify = .ok usage ↔
      method.declaration.argumentSlots ≤ method.limits.maxLocals ∧
        usage = ⟨0, method.declaration.argumentSlots, 0⟩ := by
  have built : FlowGraph.build method.instructions = .ok ⟨[], []⟩ := by rw [empty]; rfl
  have explored : explore method.limits ⟨[], []⟩ (.initial 0)
      ⟨0, method.declaration.argumentSlots, 0⟩ =
        .ok ⟨0, method.declaration.argumentSlots, 0⟩ := by
    rw [explore]
    rfl
  by_cases fit : method.declaration.argumentSlots ≤ method.limits.maxLocals
  · simp [verify, built, FlowGraph.fallsOffEnd, explored, fit, Nat.not_lt.mpr fit, eq_comm]
  · simp [verify, fit, Nat.not_le.mp fit]

/-- A method verifies if its depths can be assigned and nothing else speaks against it. -/
theorem exists_usage_of_assignment {method : Method} (inhabited : method.instructions ≠ [])
    (fit : method.declaration.argumentSlots ≤ method.limits.maxLocals)
    (labelled : Flow.WellLabelled method.instructions)
    (ends : (FlowGraph.ofCode method.instructions).fallsOffEnd = false) {depth : Nat → Nat}
    (assigned : Assignment method.limits method.instructions depth) :
    ∃ usage, method.verify = .ok usage := by
  obtain ⟨seen, survey⟩ := assigned.consistent.exists_survey inhabited
  exact ⟨_, (verify_eq_ok_iff inhabited).mpr ⟨fit, labelled, ends, seen, survey, rfl⟩⟩

/-- A method verifies if and only if its arguments fit into its locals, its labels are in order, its
body does not run off its end, and the instructions that control can reach have an assignment of
depths within the limits.  What it uses of its frame is what any such assignment says. -/
theorem verify_eq_ok_iff_assignment {method : Method} {usage : FrameUsage} :
    method.verify = .ok usage ↔
      method.declaration.argumentSlots ≤ method.maxLocals.toNat ∧
      Flow.WellLabelled method.instructions ∧
      (∀ last ∈ method.instructions.getLast?,
        last.isReturn ∨ last = .athrow ∨ ∃ label, last = .goto label) ∧
      ∃ depth, Assignment method.limits method.instructions depth ∧
        usage = assignedUsage method.declaration.argumentSlots method.instructions depth := by
  have ends_iff : (∀ last ∈ method.instructions.getLast?,
      last.isReturn ∨ last = .athrow ∨ ∃ label, last = .goto label) ↔
      (FlowGraph.ofCode method.instructions).fallsOffEnd = false := by
    rw [FlowGraph.fallsOffEnd_ofCode]
    cases method.instructions.getLast? <;> simp [← Instruction.endsBlock_iff]
  rw [ends_iff]
  -- Control starts at index zero even if no instruction is there, so an empty body stands apart.
  rcases eq_or_ne method.instructions [] with empty | inhabited
  · rw [verify_of_empty empty, empty]
    have labelled : Flow.WellLabelled [] := ⟨.nil, by simp⟩
    have assigned : Assignment method.limits [] fun _ => 0 := ⟨rfl, by simp, by simp⟩
    have falls : (FlowGraph.ofCode []).fallsOffEnd = false := rfl
    simp only [labelled, falls, assignedUsage_nil, true_and, exists_and_right]
    exact and_congr_right fun _ => (and_iff_right ⟨_, assigned⟩).symm
  · rw [verify_eq_ok_iff inhabited]
    refine and_congr_right fun _ => and_congr_right fun _ => and_congr_right fun _ => ?_
    constructor
    · rintro ⟨seen, survey, rfl⟩
      have assigned := (survey.consistent inhabited).assignment
      exact ⟨_, assigned, survey.tally_eq assigned _⟩
    · rintro ⟨depth, assigned, rfl⟩
      obtain ⟨seen, survey⟩ := assigned.consistent.exists_survey inhabited
      exact ⟨seen, survey, (survey.tally_eq assigned _).symm⟩

end Method
end MethodTracing
