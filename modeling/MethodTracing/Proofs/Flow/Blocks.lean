import Mathlib.Tactic.Common
import MethodTracing.Proofs.Flow.Passage

/-!
# Exact blocks

The blocks of a body are the ranges between consecutive leaders.  Inside a block control runs
straight on; from the last instruction of a block it passes exactly to the starts of the block's
successors.
-/

namespace MethodTracing

/-- Whether a new block begins after the instruction. -/
def Instruction.breaks (instruction : Instruction) : Bool :=
  instruction.endsBlock || instruction.isConditional

theorem Instruction.branchTarget?_of_not_breaks {instruction : Instruction}
    (unbroken : instruction.breaks = false) : instruction.branchTarget? = none := by
  simp only [breaks, Bool.or_eq_false_iff] at unbroken
  exact branchTarget?_eq_none unbroken.1 unbroken.2

namespace Flow

/-- From an instruction that does not end a block, control passes to the next one only. -/
theorem passes_iff_of_not_breaks {code : List Instruction} {index target : Nat}
    {instruction : Instruction} (found : code[index]? = some instruction)
    (unbroken : instruction.breaks = false) :
    Passes code index target ↔ target = index + 1 ∧ target < code.length := by
  have no_target := Instruction.branchTarget?_of_not_breaks unbroken
  simp only [Instruction.breaks, Bool.or_eq_false_iff] at unbroken
  simp [Passes, found, unbroken.1, no_target]

/-! ## Leaders -/

/-- Whether a block begins at an offset because of what stands before it. -/
def broken (fresh : Bool) (code : List Instruction) : Nat → Bool
  | 0 => fresh
  | offset + 1 => code[offset]?.any Instruction.breaks

/-- A block begins with an instruction that comes fresh or marks a label. -/
theorem leadersFrom_cons (index : Nat) (fresh : Bool) (first : Instruction)
    (rest : List Instruction) :
    leadersFrom index fresh (first :: rest) =
      (if fresh || first.marked?.isSome then [index] else []) ++
        leadersFrom (index + 1) first.breaks rest := by
  rw [leadersFrom, Instruction.breaks]
  split <;> rfl

theorem le_of_mem_leadersFrom {index leader : Nat} {fresh : Bool} {code : List Instruction}
    (member : leader ∈ leadersFrom index fresh code) : index ≤ leader := by
  induction code generalizing index fresh with
  | nil => simp [leadersFrom] at member
  | cons instruction rest ih =>
      simp only [leadersFrom] at member
      split at member
      · rcases List.mem_cons.mp member with rfl | later
        · exact Nat.le_refl _
        · exact Nat.le_of_succ_le (ih later)
      · exact Nat.le_of_succ_le (ih member)

theorem mem_leadersFrom (index offset : Nat) (fresh : Bool) (code : List Instruction) :
    index + offset ∈ leadersFrom index fresh code ↔
      ∃ instruction, code[offset]? = some instruction ∧
        (instruction.marked?.isSome ∨ broken fresh code offset) := by
  induction code generalizing index fresh offset with
  | nil => simp [leadersFrom]
  | cons first rest ih =>
      simp only [leadersFrom]
      cases offset with
      | zero =>
          have later :
              index ∉ leadersFrom (index + 1) (first.endsBlock || first.isConditional) rest :=
            fun member => by
              have := le_of_mem_leadersFrom member
              omega
          split
          · rename_i leads
            simpa [broken, or_comm] using leads
          · rename_i follows
            simpa [broken, later, not_or, and_comm] using follows
      | succ offset =>
          have shifted : index + (offset + 1) = index + 1 + offset := by omega
          have broken_eq : broken (first.endsBlock || first.isConditional) rest offset =
              broken fresh (first :: rest) (offset + 1) := by
            cases offset <;> simp [broken, Instruction.breaks]
          rw [shifted, List.getElem?_cons_succ, ← broken_eq, ← ih (index + 1)]
          split
          · simp [show index + 1 + offset ≠ index by omega]
          · rfl

theorem leadersFrom_pairwise (index : Nat) (fresh : Bool) (code : List Instruction) :
    (leadersFrom index fresh code).Pairwise (· < ·) := by
  induction code generalizing index fresh with
  | nil => exact List.Pairwise.nil
  | cons instruction rest ih =>
      simp only [leadersFrom]
      split
      · exact List.pairwise_cons.mpr ⟨fun _ member => le_of_mem_leadersFrom member, ih _ _⟩
      · exact ih _ _

theorem leaders_pairwise (code : List Instruction) : (leaders code).Pairwise (· < ·) :=
  leadersFrom_pairwise 0 true code

theorem mem_leaders {index : Nat} {code : List Instruction} :
    index ∈ leaders code ↔
      ∃ instruction, code[index]? = some instruction ∧
        (instruction.marked?.isSome ∨ broken true code index) := by
  simpa [leaders] using mem_leadersFrom 0 index true code

theorem lt_length_of_mem_leaders {index : Nat} {code : List Instruction}
    (member : index ∈ leaders code) : index < code.length := by
  obtain ⟨_, found, _⟩ := mem_leaders.mp member
  exact (List.getElem?_eq_some_iff.mp found).1

theorem leaders_cons_zero {code : List Instruction} (inhabited : code ≠ []) :
    (leaders code)[0]? = some 0 := by
  obtain ⟨first, rest, rfl⟩ := List.exists_cons_of_ne_nil inhabited
  simp [leaders, leadersFrom]

/-! ## Ranges between leaders -/

theorem getElem?_ranges (size : Nat) (starts : List Nat) (id : Nat) :
    (ranges size starts)[id]? =
      starts[id]?.map fun start => (start, (starts[id + 1]?).getD size) := by
  induction starts generalizing id with
  | nil => simp [ranges]
  | cons start rest ih =>
      cases rest with
      | nil => cases id <;> simp [ranges]
      | cons next rest =>
          cases id with
          | zero => simp [ranges]
          | succ id => simpa [ranges] using ih id

theorem length_takeWhile_le {starts : List Nat} {id index : Nat}
    (ascending : starts.Pairwise (· < ·)) (found : starts[id]? = some index) :
    (starts.takeWhile (· ≤ index)).length = id + 1 := by
  induction starts generalizing id with
  | nil => simp at found
  | cons start rest ih =>
      obtain ⟨above, rest_ascending⟩ := List.pairwise_cons.mp ascending
      cases id with
      | zero =>
          obtain rfl : start = index := by simpa using found
          have stops : rest.takeWhile (· ≤ start) = [] := by
            cases rest with
            | nil => rfl
            | cons next later =>
                have next_above := above next List.mem_cons_self
                simp [show ¬next ≤ start by omega]
          simp [stops]
      | succ id =>
          have start_lt : start < index :=
            above index (List.mem_of_getElem? (by simpa using found))
          simp [show start ≤ index by omega, ih rest_ascending (by simpa using found)]

/-- The block of a leader is the one that begins there. -/
theorem blockAt_of_leader {starts : List Nat} {id index : Nat}
    (ascending : starts.Pairwise (· < ·)) (found : starts[id]? = some index) :
    blockAt starts index = id := by
  simp [blockAt, length_takeWhile_le ascending found]

theorem getElem?_blocksFrom (code : List Instruction) (starts : List Nat) (first : Nat)
    (parts : List (Nat × Nat)) (id : Nat) :
    (blocksFrom code starts first parts)[id]? =
      parts[id]?.map fun (start, stop) =>
        { start, stop
          successors :=
            ((code[stop - 1]?).map (successors code starts (first + id))).getD [] } := by
  induction parts generalizing first id with
  | nil => simp [blocksFrom]
  | cons part rest ih =>
      obtain ⟨start, stop⟩ := part
      cases id with
      | zero => cases last : code[stop - 1]? <;> simp [blocksFrom, last]
      | succ id =>
          simp [blocksFrom, ih, show first + 1 + id = first + (id + 1) by omega]

theorem mem_successors {code : List Instruction} {starts : List Nat} {id successor : Nat}
    {last : Instruction} :
    successor ∈ successors code starts id last ↔
      (∃ label position, last.branchTarget? = some label ∧
        labelPosition? code label = some position ∧ successor = blockAt starts position) ∨
      last.endsBlock = false ∧ id + 1 < starts.length ∧ successor = id + 1 := by
  have jumps : successor ∈ ((last.branchTarget?.bind (labelPosition? code)).map
        (blockAt starts)).toList ↔
      ∃ label position, last.branchTarget? = some label ∧
        labelPosition? code label = some position ∧ successor = blockAt starts position := by
    simp only [Option.mem_toList, Option.map_eq_some_iff, Option.bind_eq_some_iff]
    constructor
    · rintro ⟨position, ⟨label, target, placed⟩, rfl⟩
      exact ⟨label, position, target, placed, rfl⟩
    · rintro ⟨label, position, target, placed, rfl⟩
      exact ⟨position, ⟨label, target, placed⟩, rfl⟩
  rw [← jumps]
  simp only [successors]
  split
  · rename_i falls
    simp only [Bool.and_eq_true, Bool.not_eq_eq_eq_not, Bool.not_true, decide_eq_true_eq] at falls
    simp [falls.1.1, falls.1.2]
  · rename_i stays
    constructor
    · exact Or.inl
    · rintro (jump | ⟨goes_on, in_range, rfl⟩)
      · exact jump
      · simpa [goes_on, in_range] using stays

end Flow

namespace FlowGraph

open MethodTracing.Flow

/-! ## The blocks of a body -/

theorem getElem?_blocks (code : List Instruction) (id : Nat) :
    (ofCode code).blocks[id]? =
      (leaders code)[id]?.map fun start =>
        let stop := ((leaders code)[id + 1]?).getD code.length
        { start, stop
          successors :=
            ((code[stop - 1]?).map (successors code (leaders code) id)).getD [] } := by
  simp only [ofCode, getElem?_blocksFrom, getElem?_ranges, Option.map_map, Nat.zero_add]
  rfl

section Block

variable {code : List Instruction} {id : Nat} {block : Block}

theorem leader_of_block (found : (ofCode code).blocks[id]? = some block) :
    (leaders code)[id]? = some block.start := by
  rw [getElem?_blocks] at found
  obtain ⟨start, leader, rfl⟩ := Option.map_eq_some_iff.mp found
  exact leader

theorem stop_of_block (found : (ofCode code).blocks[id]? = some block) :
    block.stop = ((leaders code)[id + 1]?).getD code.length := by
  rw [getElem?_blocks] at found
  obtain ⟨start, -, rfl⟩ := Option.map_eq_some_iff.mp found
  rfl

theorem exists_block_of_leader {start : Nat} (leader : (leaders code)[id]? = some start) :
    ∃ block, (ofCode code).blocks[id]? = some block ∧ block.start = start := by
  simp [getElem?_blocks, leader]

theorem start_lt_stop (found : (ofCode code).blocks[id]? = some block) :
    block.start < block.stop := by
  have leader := leader_of_block found
  rw [stop_of_block found]
  cases next : (leaders code)[id + 1]? with
  | none => exact lt_length_of_mem_leaders (List.mem_of_getElem? leader)
  | some stop =>
      obtain ⟨id_lt, rfl⟩ := List.getElem?_eq_some_iff.mp next
      obtain ⟨_, start_eq⟩ := List.getElem?_eq_some_iff.mp leader
      rw [← start_eq]
      exact List.pairwise_iff_getElem.mp (leaders_pairwise code) id (id + 1) _ id_lt (by omega)

theorem stop_le_length (found : (ofCode code).blocks[id]? = some block) :
    block.stop ≤ code.length := by
  rw [stop_of_block found]
  cases next : (leaders code)[id + 1]? with
  | none => exact Nat.le_refl _
  | some stop => exact Nat.le_of_lt (lt_length_of_mem_leaders (List.mem_of_getElem? next))

/-- No block begins inside another one. -/
theorem not_leader_inside (found : (ofCode code).blocks[id]? = some block) {index : Nat}
    (after_start : block.start < index) (before_stop : index < block.stop) :
    index ∉ leaders code := by
  intro member
  obtain ⟨place, place_lt, rfl⟩ := List.mem_iff_getElem.mp member
  obtain ⟨id_lt, start_eq⟩ := List.getElem?_eq_some_iff.mp (leader_of_block found)
  have ascending := List.pairwise_iff_getElem.mp (leaders_pairwise code)
  have id_lt_place : id < place := by
    by_contra not_after
    rcases Nat.lt_or_ge place id with before | after
    · have := ascending place id place_lt id_lt before
      omega
    · obtain rfl : place = id := by omega
      omega
  have next_lt : id + 1 < (leaders code).length := by omega
  rw [stop_of_block found, List.getElem?_eq_getElem next_lt, Option.getD_some] at before_stop
  rcases Nat.lt_or_ge (id + 1) place with beyond | not_beyond
  · have := ascending (id + 1) place next_lt place_lt beyond
    omega
  · obtain rfl : place = id + 1 := by omega
    omega

/-- Inside a block, no instruction ends it. -/
theorem not_breaks_inside (found : (ofCode code).blocks[id]? = some block) {index : Nat}
    (from_start : block.start ≤ index) (before_stop : index + 1 < block.stop) :
    ∃ instruction, code[index]? = some instruction ∧ instruction.breaks = false := by
  have in_range := stop_le_length found
  have index_lt : index < code.length := by omega
  refine ⟨code[index], List.getElem?_eq_getElem index_lt, ?_⟩
  by_contra breaks
  refine not_leader_inside found (by omega) before_stop (mem_leaders.mpr ?_)
  exact ⟨code[index + 1], List.getElem?_eq_getElem (by omega),
    Or.inr (by simpa [broken, index_lt] using breaks)⟩

/-- Inside a block, control runs straight on. -/
theorem passes_inside_iff (found : (ofCode code).blocks[id]? = some block) {index target : Nat}
    (from_start : block.start ≤ index) (before_stop : index + 1 < block.stop) :
    Passes code index target ↔ target = index + 1 := by
  obtain ⟨instruction, instruction_at, unbroken⟩ :=
    not_breaks_inside found from_start before_stop
  have in_range := stop_le_length found
  rw [passes_iff_of_not_breaks instruction_at unbroken]
  exact ⟨And.left, fun target_eq => ⟨target_eq, by omega⟩⟩

theorem successors_of_block (found : (ofCode code).blocks[id]? = some block) :
    ∃ last, code[block.terminator]? = some last ∧
      block.successors = successors code (leaders code) id last := by
  have nonempty := start_lt_stop found
  have in_range := stop_le_length found
  rw [getElem?_blocks] at found
  obtain ⟨start, -, rfl⟩ := Option.map_eq_some_iff.mp found
  have terminator_lt : ((leaders code)[id + 1]?).getD code.length - 1 < code.length := by
    simp only at nonempty in_range
    omega
  exact ⟨_, List.getElem?_eq_getElem terminator_lt, by simp [terminator_lt]⟩

/-- The successors of a block are blocks. -/
theorem exists_successor (found : (ofCode code).blocks[id]? = some block) {successor : Nat}
    (member : successor ∈ block.successors) :
    ∃ next, (ofCode code).blocks[successor]? = some next := by
  obtain ⟨last, -, successors_eq⟩ := successors_of_block found
  rw [successors_eq] at member
  rcases mem_successors.mp member with ⟨label, position, -, placed, rfl⟩ | ⟨-, in_blocks, rfl⟩
  · obtain ⟨marked, -⟩ := labelPosition?_eq_some_iff.mp placed
    have leader : position ∈ leaders code := mem_leaders.mpr ⟨_, marked, Or.inl rfl⟩
    obtain ⟨place, placed_at⟩ := List.mem_iff_getElem?.mp leader
    obtain ⟨next, next_at, -⟩ := exists_block_of_leader placed_at
    exact ⟨next, blockAt_of_leader (leaders_pairwise code) placed_at ▸ next_at⟩
  · obtain ⟨next, next_at, -⟩ := exists_block_of_leader (List.getElem?_eq_getElem in_blocks)
    exact ⟨next, next_at⟩

/-- From the end of a block, control passes to the starts of its successors. -/
theorem passes_terminator_iff (found : (ofCode code).blocks[id]? = some block) {target : Nat} :
    Passes code block.terminator target ↔
      ∃ successor ∈ block.successors, ∃ next,
        (ofCode code).blocks[successor]? = some next ∧ next.start = target := by
  have nonempty := start_lt_stop found
  have in_range := stop_le_length found
  obtain ⟨last, last_at, successors_eq⟩ := successors_of_block found
  simp only [Passes, last_at, Option.some.injEq, exists_eq_left', successors_eq, mem_successors]
  constructor
  · rintro (⟨goes_on, rfl, target_lt⟩ | ⟨label, branch, placed⟩)
    · have stop_eq : block.terminator + 1 = block.stop := by
        simp only [Block.terminator]
        omega
      have stop_leader := stop_of_block found
      cases next : (leaders code)[id + 1]? with
      | none =>
          rw [next, Option.getD_none] at stop_leader
          omega
      | some stop =>
          rw [next, Option.getD_some] at stop_leader
          obtain ⟨follower, follower_at, follower_start⟩ := exists_block_of_leader next
          refine ⟨id + 1, Or.inr ⟨goes_on, (List.getElem?_eq_some_iff.mp next).1, rfl⟩, follower,
            follower_at, ?_⟩
          omega
    · obtain ⟨marked, -⟩ := labelPosition?_eq_some_iff.mp placed
      have leader : target ∈ leaders code := mem_leaders.mpr ⟨_, marked, Or.inl rfl⟩
      obtain ⟨place, placed_at⟩ := List.mem_iff_getElem?.mp leader
      obtain ⟨next, next_at, next_start⟩ := exists_block_of_leader placed_at
      exact ⟨place, Or.inl ⟨label, target, branch, placed,
        (blockAt_of_leader (leaders_pairwise code) placed_at).symm⟩, next, next_at, next_start⟩
  · rintro ⟨successor, ⟨label, position, branch, placed, rfl⟩ | ⟨goes_on, in_blocks, rfl⟩, next,
      next_at, rfl⟩
    · obtain ⟨marked, -⟩ := labelPosition?_eq_some_iff.mp placed
      have leader : position ∈ leaders code := mem_leaders.mpr ⟨_, marked, Or.inl rfl⟩
      obtain ⟨place, placed_at⟩ := List.mem_iff_getElem?.mp leader
      rw [blockAt_of_leader (leaders_pairwise code) placed_at] at next_at
      have start_eq : next.start = position := by
        simpa [placed_at] using (leader_of_block next_at).symm
      exact Or.inr ⟨label, branch, start_eq ▸ placed⟩
    · have next_leader := leader_of_block next_at
      have stop_leader := stop_of_block found
      rw [next_leader, Option.getD_some] at stop_leader
      refine Or.inl ⟨goes_on, ?_, lt_length_of_mem_leaders (List.mem_of_getElem? next_leader)⟩
      simp only [Block.terminator]
      omega

/-- Every index of a body lies in a block. -/
theorem exists_block_of_lt {index : Nat} (in_range : index < code.length) :
    ∃ (id : Nat) (block : Block), (ofCode code).blocks[id]? = some block ∧
      block.start ≤ index ∧ index < block.stop := by
  induction index with
  | zero =>
      have inhabited : code ≠ [] := List.ne_nil_of_length_pos in_range
      obtain ⟨block, found, start_eq⟩ := exists_block_of_leader (leaders_cons_zero inhabited)
      have := start_lt_stop found
      exact ⟨0, block, found, by omega, by omega⟩
  | succ index ih =>
      obtain ⟨id, block, found, from_start, before_stop⟩ := ih (by omega)
      by_cases inside : index + 1 < block.stop
      · exact ⟨id, block, found, by omega, inside⟩
      · have stop_leader := stop_of_block found
        cases next : (leaders code)[id + 1]? with
        | none =>
            rw [next, Option.getD_none] at stop_leader
            omega
        | some stop =>
            rw [next, Option.getD_some] at stop_leader
            obtain ⟨follower, follower_at, start_eq⟩ := exists_block_of_leader next
            have := start_lt_stop follower_at
            exact ⟨id + 1, follower, follower_at, by omega, by omega⟩

/-- No index of a body lies in two blocks. -/
theorem block_unique {other : Nat} {otherBlock : Block} {index : Nat}
    (found : (ofCode code).blocks[id]? = some block)
    (other_found : (ofCode code).blocks[other]? = some otherBlock)
    (inside : block.start ≤ index ∧ index < block.stop)
    (other_inside : otherBlock.start ≤ index ∧ index < otherBlock.stop) : id = other := by
  have leader := leader_of_block found
  have other_leader := leader_of_block other_found
  have start_eq : block.start = otherBlock.start := by
    rcases Nat.lt_trichotomy block.start otherBlock.start with before | same | after
    · exact absurd (List.mem_of_getElem? other_leader)
        (not_leader_inside found before (by omega))
    · exact same
    · exact absurd (List.mem_of_getElem? leader)
        (not_leader_inside other_found after (by omega))
  have left := blockAt_of_leader (leaders_pairwise code) leader
  have right := blockAt_of_leader (leaders_pairwise code) other_leader
  rw [← left, ← right, start_eq]

/-- Blocks lie one after another. -/
theorem stop_le_start {other : Nat} {otherBlock : Block}
    (found : (ofCode code).blocks[id]? = some block)
    (other_found : (ofCode code).blocks[other]? = some otherBlock) (before : id < other) :
    block.stop ≤ otherBlock.start := by
  have other_leader := leader_of_block other_found
  obtain ⟨id_lt, start_eq⟩ := List.getElem?_eq_some_iff.mp (leader_of_block found)
  obtain ⟨other_lt, other_start_eq⟩ := List.getElem?_eq_some_iff.mp other_leader
  have ascending := List.pairwise_iff_getElem.mp (leaders_pairwise code) id other id_lt other_lt
    before
  by_contra overlap
  exact not_leader_inside found (by omega) (by omega) (List.mem_of_getElem? other_leader)

theorem getElem?_blockCode {offset : Nat} (inside : block.start + offset < block.stop) :
    ((ofCode code).blockCode block)[offset]? = code[block.start + offset]? := by
  simp [blockCode, ofCode, show offset < block.stop - block.start by omega]

theorem length_blockCode (found : (ofCode code).blocks[id]? = some block) :
    ((ofCode code).blockCode block).length = block.stop - block.start := by
  have in_range := stop_le_length found
  have nonempty := start_lt_stop found
  simp only [blockCode, ofCode, List.length_take, List.length_drop]
  omega

end Block

/-! ## Exits -/

theorem endsWith_iff {code : List Instruction} {test : Instruction → Bool} {block : Block} :
    (ofCode code).endsWith test block ↔
      ∃ last, code[block.terminator]? = some last ∧ test last := by
  simp [endsWith, ofCode, Option.any_eq_true]

/-- The exit sites of a body are its returns, whether or not they are reached. -/
theorem mem_exitSites {code : List Instruction} {index : Nat} :
    index ∈ (ofCode code).exitSites ↔
      ∃ instruction, code[index]? = some instruction ∧ instruction.isReturn := by
  simp only [exitSites, exitBlocks, List.mem_map, List.mem_filter, endsWith_iff]
  constructor
  · rintro ⟨block, ⟨-, ends⟩, rfl⟩
    exact ends
  · rintro ⟨instruction, found, returns⟩
    have index_lt := (List.getElem?_eq_some_iff.mp found).1
    obtain ⟨id, block, block_at, from_start, before_stop⟩ := exists_block_of_lt index_lt
    have last : block.terminator = index := by
      by_contra inside
      simp only [Block.terminator] at inside
      obtain ⟨same, same_at, unbroken⟩ := not_breaks_inside block_at from_start (by omega)
      obtain rfl := Option.some.inj (found.symm.trans same_at)
      simp [Instruction.breaks, Instruction.endsBlock_of_isReturn returns] at unbroken
    exact ⟨block, ⟨List.mem_of_getElem? block_at, instruction, last ▸ found, returns⟩, last⟩

theorem exitSites_pairwise (code : List Instruction) :
    (ofCode code).exitSites.Pairwise (· < ·) := by
  apply List.Pairwise.map (R := fun left right : Block => left.terminator < right.terminator)
  · exact fun _ _ before => before
  · apply List.Pairwise.filter
    rw [List.pairwise_iff_getElem]
    intro left right left_lt right_lt before
    have left_at := List.getElem?_eq_getElem left_lt
    have right_at := List.getElem?_eq_getElem right_lt
    have apart := stop_le_start left_at right_at before
    have left_nonempty := start_lt_stop left_at
    have right_nonempty := start_lt_stop right_at
    simp only [Block.terminator]
    omega

/-- Control runs off the end of a body exactly if its last instruction does not end a block. -/
theorem fallsOffEnd_ofCode (code : List Instruction) :
    (ofCode code).fallsOffEnd = code.getLast?.any fun last => !last.endsBlock := by
  cases last_block : (ofCode code).blocks.getLast? with
  | none =>
      cases code with
      | nil => simp [fallsOffEnd, last_block]
      | cons first rest =>
          obtain ⟨_, _, block_at, -⟩ :=
            exists_block_of_lt (show 0 < (first :: rest).length by simp)
          rw [List.getLast?_eq_none_iff.mp last_block] at block_at
          simp at block_at
  | some block =>
      have block_at := last_block
      rw [List.getLast?_eq_getElem?] at block_at
      have stop_eq : block.stop = code.length := by
        have stop_leader := stop_of_block block_at
        cases next : (leaders code)[(ofCode code).blocks.length - 1 + 1]? with
        | none => rw [stop_leader, next, Option.getD_none]
        | some start =>
            obtain ⟨_, beyond, -⟩ := exists_block_of_leader next
            have := (List.getElem?_eq_some_iff.mp beyond).1
            omega
      rw [Bool.eq_iff_iff, fallsOffEnd, last_block, Option.any_some, endsWith_iff,
        List.getLast?_eq_getElem?, Option.any_eq_true, Block.terminator, stop_eq]

end FlowGraph
end MethodTracing
