import MethodTracing.Proofs.Flow.Blocks

/-!
# Exactness of control flow graphs

Main statement: the bodies that have a control flow graph are the well-labelled ones, and the graph
tells exactly which ways control can take.
-/

namespace MethodTracing

/-- What a new block begins after. -/
theorem Instruction.breaks_iff {instruction : Instruction} :
    instruction.breaks ↔
      instruction.isReturn ∨ instruction = .athrow ∨ instruction.branchTarget?.isSome := by
  cases instruction <;> simp [breaks, endsBlock, isConditional, isReturn, branchTarget?]

/-- Control passes from a block to another one by one edge only. -/
theorem Flow.successors_nodup (code : List Instruction) (starts : List Nat) (id : Nat)
    (last : Instruction) : (successors code starts id last).Nodup := by
  have jump_nodup (target : Option Nat) : target.toList.Nodup := by cases target <;> simp
  simp only [successors]
  split
  · rename_i falls
    simp only [Bool.and_eq_true, Bool.not_eq_true', List.contains_eq_mem, decide_eq_false_iff_not]
      at falls
    refine List.nodup_append.mpr ⟨jump_nodup _, by simp, fun target jumped next is_next => ?_⟩
    rintro rfl
    obtain rfl := List.mem_singleton.mp is_next
    exact falls.2 jumped
  · exact jump_nodup _

namespace FlowGraph

open MethodTracing.Flow

/-- A graph divides a body into its blocks and tells exactly which ways control can take in it. -/
structure Exact (code : List Instruction) (graph : FlowGraph) : Prop where
  /-- No block is empty. -/
  nonempty : ∀ block ∈ graph.blocks, block.start < block.stop
  /-- The blocks lie one after another. -/
  ascending : graph.blocks.Pairwise fun left right => left.stop ≤ right.start
  /-- The blocks hold the indices of the body and no others. -/
  covers : ∀ index, index < code.length ↔
    ∃ block ∈ graph.blocks, block.start ≤ index ∧ index < block.stop
  /-- A label stands first in its block. -/
  labels_first : ∀ block ∈ graph.blocks, ∀ index label, block.start ≤ index → index < block.stop →
    code[index]? = some (.label label) → index = block.start
  /-- What ends a method and what branches stands last in its block. -/
  breaks_last : ∀ block ∈ graph.blocks, ∀ index instruction, block.start ≤ index →
    index < block.stop → code[index]? = some instruction →
      instruction.isReturn ∨ instruction = .athrow ∨ instruction.branchTarget?.isSome →
        index = block.terminator
  /-- No successor is listed twice. -/
  successors_nodup : ∀ block ∈ graph.blocks, block.successors.Nodup
  /-- Every successor is a block. -/
  successors_lt : ∀ block ∈ graph.blocks, ∀ successor ∈ block.successors,
    successor < graph.blocks.length
  /-- Control passes to the next instruction inside a block, and from the last instruction of a
  block to the first one of each successor. -/
  passes_iff : ∀ source target, Passes code source target ↔
    (∃ block ∈ graph.blocks, block.start ≤ source ∧ target = source + 1 ∧ target < block.stop) ∨
      ∃ block ∈ graph.blocks, source = block.terminator ∧
        ∃ successor ∈ block.successors, ∃ next, graph.blocks[successor]? = some next ∧
          target = next.start
  /-- The exit sites are in ascending order. -/
  exitSites_ascending : graph.exitSites.Pairwise (· < ·)
  /-- The exit sites are the returns. -/
  mem_exitSites_iff : ∀ index, index ∈ graph.exitSites ↔
    ∃ instruction, code[index]? = some instruction ∧ instruction.isReturn
  /-- Control can run off the end of a body that does not end in a return, a throw or a jump. -/
  fallsOffEnd_iff : graph.fallsOffEnd ↔ ∃ last, code.getLast? = some last ∧
    ¬(last.isReturn ∨ last = .athrow ∨ ∃ label, last = .goto label)

section Block

variable {code : List Instruction} {id : Nat} {block : Block}

theorem labels_first_ofCode (found : (ofCode code).blocks[id]? = some block) {index : Nat}
    {label : Label} (from_start : block.start ≤ index) (before_stop : index < block.stop)
    (marked : code[index]? = some (.label label)) : index = block.start := by
  by_contra inside
  exact not_leader_inside found (by omega) before_stop
    (mem_leaders.mpr ⟨_, marked, Or.inl rfl⟩)

theorem breaks_last_ofCode (found : (ofCode code).blocks[id]? = some block) {index : Nat}
    {instruction : Instruction} (from_start : block.start ≤ index)
    (before_stop : index < block.stop) (instruction_at : code[index]? = some instruction)
    (breaks : instruction.breaks) : index = block.terminator := by
  by_contra inside
  simp only [Block.terminator] at inside
  obtain ⟨same, same_at, unbroken⟩ := not_breaks_inside found from_start (by omega)
  obtain rfl := Option.some.inj (instruction_at.symm.trans same_at)
  simp [breaks] at unbroken

/-- Every step that control can take is one inside a block or one to a successor. -/
theorem passes_ofCode_iff (code : List Instruction) (source target : Nat) :
    Passes code source target ↔
      (∃ block ∈ (ofCode code).blocks,
        block.start ≤ source ∧ target = source + 1 ∧ target < block.stop) ∨
      ∃ block ∈ (ofCode code).blocks, source = block.terminator ∧
        ∃ successor ∈ block.successors, ∃ next, (ofCode code).blocks[successor]? = some next ∧
          target = next.start := by
  constructor
  · intro passes
    obtain ⟨instruction, instruction_at, -⟩ := id passes
    obtain ⟨id, block, found, from_start, before_stop⟩ :=
      exists_block_of_lt (List.getElem?_eq_some_iff.mp instruction_at).1
    have member := List.mem_of_getElem? found
    by_cases inside : source + 1 < block.stop
    · have target_eq := (passes_inside_iff found from_start inside).mp passes
      exact Or.inl ⟨block, member, from_start, target_eq, target_eq ▸ inside⟩
    · have last : source = block.terminator := by
        simp only [Block.terminator]
        omega
      rw [last, passes_terminator_iff found] at passes
      obtain ⟨successor, successor_mem, next, next_at, start_eq⟩ := passes
      exact Or.inr ⟨block, member, last, successor, successor_mem, next, next_at, start_eq.symm⟩
  · rintro (⟨block, member, from_start, rfl, inside⟩ |
      ⟨block, member, rfl, successor, successor_mem, next, next_at, rfl⟩)
    · obtain ⟨id, found⟩ := List.mem_iff_getElem?.mp member
      exact (passes_inside_iff found from_start inside).mpr rfl
    · obtain ⟨id, found⟩ := List.mem_iff_getElem?.mp member
      exact (passes_terminator_iff found).mpr ⟨successor, successor_mem, next, next_at, rfl⟩

end Block

theorem exact_ofCode (code : List Instruction) : (ofCode code).Exact code where
  nonempty block member := by
    obtain ⟨id, found⟩ := List.mem_iff_getElem?.mp member
    exact start_lt_stop found
  ascending := by
    rw [List.pairwise_iff_getElem]
    intro left right left_lt right_lt before
    exact stop_le_start (List.getElem?_eq_getElem left_lt) (List.getElem?_eq_getElem right_lt)
      before
  covers index := by
    constructor
    · intro in_range
      obtain ⟨id, block, found, inside⟩ := exists_block_of_lt in_range
      exact ⟨block, List.mem_of_getElem? found, inside⟩
    · rintro ⟨block, member, -, before_stop⟩
      obtain ⟨id, found⟩ := List.mem_iff_getElem?.mp member
      exact Nat.lt_of_lt_of_le before_stop (stop_le_length found)
  labels_first block member index label from_start before_stop marked := by
    obtain ⟨id, found⟩ := List.mem_iff_getElem?.mp member
    exact labels_first_ofCode found from_start before_stop marked
  breaks_last block member index instruction from_start before_stop instruction_at breaks := by
    obtain ⟨id, found⟩ := List.mem_iff_getElem?.mp member
    exact breaks_last_ofCode found from_start before_stop instruction_at
      (Instruction.breaks_iff.mpr breaks)
  successors_nodup block member := by
    obtain ⟨id, found⟩ := List.mem_iff_getElem?.mp member
    obtain ⟨last, -, successors_eq⟩ := successors_of_block found
    rw [successors_eq]
    exact Flow.successors_nodup code (leaders code) id last
  successors_lt block member successor follows := by
    obtain ⟨id, found⟩ := List.mem_iff_getElem?.mp member
    obtain ⟨next, next_at⟩ := exists_successor found follows
    exact (List.getElem?_eq_some_iff.mp next_at).1
  passes_iff := passes_ofCode_iff code
  exitSites_ascending := exitSites_pairwise code
  mem_exitSites_iff index := mem_exitSites
  fallsOffEnd_iff := by
    rw [fallsOffEnd_ofCode, Option.any_eq_true]
    refine exists_congr fun last => and_congr_right fun _ => ?_
    rw [← Instruction.endsBlock_iff]
    simp

/-- A body has a control flow graph if and only if it marks no label twice and every label that a
branch names; the graph is then exact. -/
theorem build_exact (code : List Instruction) :
    ((∃ graph, build code = .ok graph) ↔ WellLabelled code) ∧
      ∀ graph, build code = .ok graph → graph.Exact code := by
  constructor
  · simp [build_eq_ok_iff]
  · intro graph built
    obtain ⟨-, rfl⟩ := build_eq_ok_iff.mp built
    exact exact_ofCode code

/-- A body with a branch to the next block, a jump to itself, labels side by side, and a branch at
its end. -/
def crossroads : List Instruction :=
  [.label ⟨0⟩, .label ⟨1⟩, .load .int 0, .branchZero .eq ⟨2⟩, .label ⟨2⟩, .load .int 0,
    .branchZero .lt ⟨3⟩, .ret none, .label ⟨3⟩, .goto ⟨3⟩, .load .int 0, .branchZero .gt ⟨1⟩]

/-- The graph of the crossroads. -/
def crossroadsGraph : FlowGraph :=
  ⟨crossroads, [⟨0, 1, [1]⟩, ⟨1, 4, [2]⟩, ⟨4, 7, [4, 3]⟩, ⟨7, 8, []⟩, ⟨8, 10, [4]⟩, ⟨10, 12, [1]⟩]⟩

theorem build_exact_crossroads :
    build crossroads = .ok crossroadsGraph ∧ crossroadsGraph.Exact crossroads :=
  have built : build crossroads = .ok crossroadsGraph := by decide +kernel
  ⟨built, (build_exact crossroads).2 crossroadsGraph built⟩

end FlowGraph
end MethodTracing
