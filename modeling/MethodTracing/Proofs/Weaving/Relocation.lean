import MethodTracing.Proofs.Flow.Exactness
import MethodTracing.Proofs.Weaving.Layout

/-!
# Relocated control flow graphs

The blocks of a woven body are the blocks of the original one in their new places.  The entry
sequence is a block of its own if the body starts with a label; otherwise it belongs to the first
block.

Main statement: the control flow graph of an instrumented method is that of the method before,
relocated.
-/

namespace MethodTracing
namespace Weaving

/-- Whether a body starts with a label, which keeps the entry sequence out of its first block. -/
def startsWithLabel (code : List Instruction) : Bool :=
  code.head?.any fun first => first.marked?.isSome

/-- The block that the entry sequence makes up by itself, if it does. -/
def entryBlocks (code : List Instruction) : List Block :=
  if startsWithLabel code then [⟨0, 5, [1]⟩] else []

/-- Index in the woven body of the first instruction of the block that began at `index`. -/
def landing (code : List Instruction) (index : Nat) : Nat :=
  if index = 0 ∧ startsWithLabel code = false then 0 else offset code index

/-- A block in its new place. -/
def moved (code : List Instruction) (block : Block) : Block :=
  { start := landing code block.start
    stop := offset code block.stop
    successors := block.successors.map (· + (entryBlocks code).length) }

variable {name : String} {startSlot endSlot : UInt16} {code : List Instruction}

theorem mem_entryBlocks {block : Block} :
    block ∈ entryBlocks code ↔ startsWithLabel code = true ∧ block = ⟨0, 5, [1]⟩ := by
  rw [entryBlocks]
  split <;> simp_all

theorem landing_of_pos {index : Nat} (behind_start : 0 < index) :
    landing code index = offset code index :=
  if_neg fun ⟨at_start, _⟩ => by omega

theorem landing_of_startsWithLabel (labelled : startsWithLabel code = true) (index : Nat) :
    landing code index = offset code index := by
  simp [landing, labelled]

/-! ## Leaders -/

/-- What stands for an instruction begins blocks as the instruction does. -/
theorem leadersFrom_group (index : Nat) (fresh : Bool) (first : Instruction)
    (rest : List Instruction) :
    Flow.leadersFrom index fresh
        (group (Trace.exitCode name startSlot endSlot) first ++ rest) =
      (if fresh || first.marked?.isSome then [index] else []) ++
        Flow.leadersFrom (index + (group (Trace.exitCode name startSlot endSlot) first).length)
          first.breaks rest := by
  by_cases returns : first.isReturn
  · have unmarked : first.marked? = none := by
      cases first <;> simp_all [Instruction.isReturn, Instruction.marked?]
    have straight := straight_exitCode name startSlot endSlot
    have nonempty : Trace.exitCode name startSlot endSlot ≠ [] := by simp [Trace.exitCode]
    rw [group, if_pos returns, List.append_assoc, Flow.leadersFrom_append straight nonempty,
      List.singleton_append, Flow.leadersFrom_cons]
    simp [unmarked, Nat.add_assoc]
  · rw [group, if_neg returns, List.singleton_append, Flow.leadersFrom_cons]
    rfl

/-- Blocks of a guarded body begin at the offsets of those of the original one. -/
theorem leadersFrom_guarded (name : String) (startSlot endSlot : UInt16)
    (before rest : List Instruction) (fresh : Bool) :
    Flow.leadersFrom (offset (before ++ rest) before.length) fresh
        (guarded (Trace.exitCode name startSlot endSlot) rest) =
      (Flow.leadersFrom before.length fresh rest).map (offset (before ++ rest)) := by
  induction rest generalizing before fresh with
  | nil => rfl
  | cons first rest ih =>
      have found : (before ++ first :: rest)[before.length]? = some first := by simp
      have later := ih (before ++ [first]) first.breaks
      rw [List.append_assoc, List.singleton_append, List.length_append, List.length_singleton]
        at later
      rw [guarded, List.flatMap_cons, leadersFrom_group, Flow.leadersFrom_cons, ← offset_succ_eq found]
      rw [guarded] at later
      rw [later, List.map_append]
      split <;> rfl

/-- Behind the entry sequence a block begins only where one began without regard to what came
before; a block that begins with it takes in the first one unless a label keeps them apart. -/
theorem leaders_traced (inhabited : code ≠ []) :
    Flow.leaders (traced name startSlot endSlot code) =
      (entryBlocks code).map Block.start ++ (Flow.leaders code).map (landing code) := by
  have behind_entry : Flow.leadersFrom 5 false
      (guarded (Trace.exitCode name startSlot endSlot) code) =
        (Flow.leadersFrom 0 false code).map (offset code) := by
    have shifted := leadersFrom_guarded name startSlot endSlot [] code false
    rwa [List.nil_append, List.length_nil, offset_zero] at shifted
  have entered : Flow.leaders (traced name startSlot endSlot code) =
      0 :: (Flow.leadersFrom 0 false code).map (offset code) := by
    rw [Flow.leaders, traced, Flow.leadersFrom_append (straight_entryCode name startSlot)
      (by simp [Trace.entryCode]), Trace.length_entryCode, behind_entry]
    rfl
  obtain ⟨first, rest, rfl⟩ := List.exists_cons_of_ne_nil inhabited
  rw [entered, Flow.leaders, Flow.leadersFrom_cons, Flow.leadersFrom_cons]
  cases marked : first.marked?.isSome with
  | true =>
      have labelled : startsWithLabel (first :: rest) = true := marked
      simp [entryBlocks, labelled, landing_of_startsWithLabel labelled]
  | false =>
      have unlabelled : startsWithLabel (first :: rest) = false := marked
      have at_start : landing (first :: rest) 0 = 0 := by simp [landing, unlabelled]
      have later : (Flow.leadersFrom 1 first.breaks rest).map (landing (first :: rest)) =
          (Flow.leadersFrom 1 first.breaks rest).map (offset (first :: rest)) :=
        List.map_congr_left fun index member => landing_of_pos (Flow.le_of_mem_leadersFrom member)
      simp [entryBlocks, unlabelled, at_start, later]

theorem getElem?_leaders_traced (name : String) (startSlot endSlot : UInt16)
    (inhabited : code ≠ []) (id : Nat) :
    (Flow.leaders (traced name startSlot endSlot code))[id + (entryBlocks code).length]? =
      (Flow.leaders code)[id]?.map (landing code) := by
  rw [leaders_traced inhabited, List.getElem?_append_right (by simp)]
  simp

/-- A block that is not the first one begins behind the start. -/
theorem landing_of_later_leader {id start : Nat}
    (leader : (Flow.leaders code)[id + 1]? = some start) :
    landing code start = offset code start := by
  apply landing_of_pos
  obtain ⟨id_lt, rfl⟩ := List.getElem?_eq_some_iff.mp leader
  have := List.pairwise_iff_getElem.mp (Flow.leaders_pairwise code) 0 (id + 1) (by omega) id_lt
    (by omega)
  omega

/-! ## Blocks -/

open FlowGraph (ofCode)

variable {id : Nat} {block : Block}

theorem stop_moved (inhabited : code ≠ []) (found : (ofCode code).blocks[id]? = some block) :
    ((Flow.leaders (traced name startSlot endSlot code))[id + (entryBlocks code).length + 1]?).getD
      (traced name startSlot endSlot code).length = (moved code block).stop := by
  have stop_eq := FlowGraph.stop_of_block found
  rw [Nat.add_right_comm, getElem?_leaders_traced name startSlot endSlot inhabited, moved]
  cases next : (Flow.leaders code)[id + 1]? with
  | none =>
      rw [next, Option.getD_none] at stop_eq
      simp [stop_eq, length_traced]
  | some start =>
      rw [next, Option.getD_some] at stop_eq
      simp [stop_eq, landing_of_later_leader next]

/-- The last instruction of a block moves to its position. -/
theorem terminator_moved (found : (ofCode code).blocks[id]? = some block) :
    (moved code block).terminator = position code block.terminator := by
  have nonempty := FlowGraph.start_lt_stop found
  have behind := offset_succ code (block.stop - 1)
  rw [Nat.sub_add_cancel (by omega)] at behind
  simp only [moved, Block.terminator, behind, Nat.add_sub_cancel]

/-- Blocks end with the instructions that they ended with. -/
theorem getElem?_terminator_moved (name : String) (startSlot endSlot : UInt16)
    (found : (ofCode code).blocks[id]? = some block) :
    (traced name startSlot endSlot code)[(moved code block).terminator]? =
      code[block.terminator]? := by
  obtain ⟨last, last_at, -⟩ := FlowGraph.successors_of_block found
  rw [terminator_moved found, getElem?_position last_at, last_at]

/-- The block that a label leads to is the one that it led to. -/
theorem blockAt_traced (inhabited : code ≠ []) {label : Label} {index : Nat}
    (placed : Flow.labelPosition? code label = some index) :
    Flow.blockAt (Flow.leaders (traced name startSlot endSlot code)) (offset code index) =
      Flow.blockAt (Flow.leaders code) index + (entryBlocks code).length := by
  obtain ⟨marked, -⟩ := Flow.labelPosition?_eq_some_iff.mp placed
  have leader : index ∈ Flow.leaders code := Flow.mem_leaders.mpr ⟨_, marked, Or.inl rfl⟩
  obtain ⟨id, leader_at⟩ := List.mem_iff_getElem?.mp leader
  have landing_eq : landing code index = offset code index := by
    rcases Nat.eq_zero_or_pos index with rfl | behind_start
    · apply landing_of_startsWithLabel
      rw [startsWithLabel, List.head?_eq_getElem?, marked]
      rfl
    · exact landing_of_pos behind_start
  have moved_at := getElem?_leaders_traced name startSlot endSlot inhabited id
  rw [leader_at, Option.map_some, landing_eq] at moved_at
  rw [Flow.blockAt_of_leader (Flow.leaders_pairwise _) moved_at,
    Flow.blockAt_of_leader (Flow.leaders_pairwise code) leader_at]

/-- Blocks lead to the blocks that they led to, in the same order. -/
theorem successors_traced (inhabited : code ≠ []) (labelled : Flow.WellLabelled code)
    (last : Instruction) :
    Flow.successors (traced name startSlot endSlot code)
        (Flow.leaders (traced name startSlot endSlot code)) (id + (entryBlocks code).length) last =
      (Flow.successors code (Flow.leaders code) id last).map (· + (entryBlocks code).length) := by
  have length_eq : (Flow.leaders (traced name startSlot endSlot code)).length =
      (Flow.leaders code).length + (entryBlocks code).length := by
    rw [leaders_traced inhabited, List.length_append, List.length_map, List.length_map,
      Nat.add_comm]
  have jump_eq : (last.branchTarget?.bind
      (Flow.labelPosition? (traced name startSlot endSlot code))).map
        (Flow.blockAt (Flow.leaders (traced name startSlot endSlot code))) =
      ((last.branchTarget?.bind (Flow.labelPosition? code)).map
        (Flow.blockAt (Flow.leaders code))).map (· + (entryBlocks code).length) := by
    cases last.branchTarget? with
    | none => rfl
    | some label =>
        simp only [Option.bind_some, labelPosition?_traced labelled]
        cases placed : Flow.labelPosition? code label with
        | none => rfl
        | some index => simp [blockAt_traced inhabited placed]
  have next_eq : id + (entryBlocks code).length + 1 = id + 1 + (entryBlocks code).length :=
    Nat.add_right_comm ..
  simp only [Flow.successors, jump_eq, length_eq, next_eq, Nat.add_lt_add_iff_right]
  rw [apply_ite (List.map (· + (entryBlocks code).length))]
  cases (last.branchTarget?.bind (Flow.labelPosition? code)).map
    (Flow.blockAt (Flow.leaders code)) with
  | none => rfl
  | some target =>
      have contains_eq : [target + (entryBlocks code).length].contains
          (id + 1 + (entryBlocks code).length) = [target].contains (id + 1) := by
        simp [List.contains_eq_mem]
      simp only [Option.map_some, Option.toList_some, contains_eq]
      rfl

/-- The blocks of the original body follow the block of the entry sequence, if that is one. -/
theorem getElem?_blocks_traced (inhabited : code ≠ []) (labelled : Flow.WellLabelled code)
    (id : Nat) :
    (ofCode (traced name startSlot endSlot code)).blocks[id + (entryBlocks code).length]? =
      (ofCode code).blocks[id]?.map (moved code) := by
  rw [FlowGraph.getElem?_blocks, getElem?_leaders_traced name startSlot endSlot inhabited]
  cases found : (ofCode code).blocks[id]? with
  | none =>
      have no_leader : (Flow.leaders code)[id]? = none := by
        simpa [FlowGraph.getElem?_blocks] using found
      rw [no_leader]
      rfl
  | some block =>
      obtain ⟨last, last_at, successors_eq⟩ := FlowGraph.successors_of_block found
      have last_moved := getElem?_terminator_moved name startSlot endSlot found
      rw [last_at, Block.terminator] at last_moved
      rw [FlowGraph.leader_of_block found]
      simp only [Option.map_some, stop_moved inhabited found]
      rw [last_moved, Option.map_some, Option.getD_some, successors_traced inhabited labelled,
        ← successors_eq]
      rfl

/-- A label in front of a body keeps the entry sequence a block of its own. -/
theorem getElem?_blocks_entry (inhabited : code ≠ []) (labelled : startsWithLabel code = true) :
    (ofCode (traced name startSlot endSlot code)).blocks[0]? = some ⟨0, 5, [1]⟩ := by
  have first_leader : (Flow.leaders (traced name startSlot endSlot code))[0]? = some 0 :=
    Flow.leaders_cons_zero traced_ne_nil
  have next_leader : (Flow.leaders (traced name startSlot endSlot code))[1]? = some 5 := by
    have moved_at := getElem?_leaders_traced name startSlot endSlot inhabited 0
    rw [Flow.leaders_cons_zero inhabited, Option.map_some, landing_of_startsWithLabel labelled,
      offset_zero] at moved_at
    simpa [entryBlocks, labelled] using moved_at
  have last_at : (traced name startSlot endSlot code)[4]? = some (.store .long startSlot) :=
    getElem?_entry (by omega)
  have more : 1 < (Flow.leaders (traced name startSlot endSlot code)).length :=
    (List.getElem?_eq_some_iff.mp next_leader).1
  rw [FlowGraph.getElem?_blocks, first_leader]
  simp only [Option.map_some, Nat.zero_add, next_leader, Option.getD_some, Nat.reduceSub, last_at]
  simp [Flow.successors, Instruction.endsBlock, Instruction.branchTarget?, more]

theorem blocks_traced (inhabited : code ≠ []) (labelled : Flow.WellLabelled code) :
    (ofCode (traced name startSlot endSlot code)).blocks =
      entryBlocks code ++ (ofCode code).blocks.map (moved code) := by
  apply List.ext_getElem?
  intro place
  rcases Nat.lt_or_ge place (entryBlocks code).length with in_entry | beyond
  · rw [List.getElem?_append_left in_entry]
    cases starts : startsWithLabel code with
    | false => simp [entryBlocks, starts] at in_entry
    | true =>
        obtain rfl : place = 0 := by simpa [entryBlocks, starts] using in_entry
        simp [getElem?_blocks_entry inhabited starts, entryBlocks, starts]
  · obtain ⟨id, rfl⟩ := Nat.exists_eq_add_of_le' beyond
    rw [List.getElem?_append_right (by omega), Nat.add_sub_cancel, List.getElem?_map]
    exact getElem?_blocks_traced inhabited labelled id

/-! ## The code of blocks -/

/-- The code of a block with a sequence before its last instruction if that is a return. -/
def guardFinal (exit code : List Instruction) : List Instruction :=
  match code.getLast? with
  | some last => if last.isReturn then code.dropLast ++ exit ++ [last] else code
  | none => code

theorem guarded_eq_guardFinal {exit : List Instruction}
    (inner : ∀ instruction ∈ code.dropLast, instruction.isReturn = false) :
    guarded exit code = guardFinal exit code := by
  rcases List.eq_nil_or_concat code with rfl | ⟨init, last, rfl⟩
  · rfl
  · rw [List.concat_eq_append, List.dropLast_concat] at *
    rw [guarded_append, guarded_of_no_return inner]
    simp [guardFinal, guarded, group]
    split <;> simp

/-- Only the last instruction of a block can be a return. -/
theorem blockCode_inner (found : (ofCode code).blocks[id]? = some block) :
    ∀ instruction ∈ ((ofCode code).blockCode block).dropLast, instruction.isReturn = false := by
  intro instruction member
  obtain ⟨place, placed⟩ := List.mem_iff_getElem?.mp member
  have place_lt := (List.getElem?_eq_some_iff.mp placed).1
  rw [List.length_dropLast] at place_lt
  rw [List.getElem?_dropLast, if_pos place_lt] at placed
  rw [FlowGraph.length_blockCode found] at place_lt
  rw [FlowGraph.getElem?_blockCode (by omega)] at placed
  cases returns : instruction.isReturn with
  | false => rfl
  | true =>
      have last := FlowGraph.breaks_last_ofCode found (by omega) (by omega) placed
        (Instruction.breaks_iff.mpr (Or.inl returns))
      simp only [Block.terminator] at last
      omega

/-- Between the offsets of two indices stands what was between them, guarded. -/
theorem take_drop_offset (name : String) (startSlot endSlot : UInt16) {start stop : Nat}
    (ordered : start ≤ stop) (in_range : stop ≤ code.length) :
    ((traced name startSlot endSlot code).drop (offset code start)).take
        (offset code stop - offset code start) =
      guarded (Trace.exitCode name startSlot endSlot) ((code.drop start).take (stop - start)) := by
  have count_eq : (code.take stop).countP Instruction.isReturn =
      (code.take start).countP Instruction.isReturn +
        ((code.drop start).take (stop - start)).countP Instruction.isReturn := by
    rw [← List.countP_append, ← List.take_add, Nat.add_sub_cancel' ordered]
  have length_eq : (guarded (Trace.exitCode name startSlot endSlot)
      ((code.drop start).take (stop - start))).length = offset code stop - offset code start := by
    rw [length_guarded, Trace.length_exitCode, List.length_take, List.length_drop, offset, offset,
      count_eq]
    omega
  rw [drop_offset (Nat.le_trans ordered in_range)]
  conv_lhs => rw [← List.take_append_drop (stop - start) (code.drop start), guarded_append]
  exact List.take_left' length_eq

/-- A block in its new place holds its code, guarded; the first block also takes in the entry
sequence if no label stands in between. -/
theorem blockCode_moved (found : (ofCode code).blocks[id]? = some block) :
    (ofCode (traced name startSlot endSlot code)).blockCode (moved code block) =
      (if block.start = 0 ∧ startsWithLabel code = false then Trace.entryCode name startSlot
        else []) ++
        guardFinal (Trace.exitCode name startSlot endSlot) ((ofCode code).blockCode block) := by
  have nonempty := FlowGraph.start_lt_stop found
  have between := take_drop_offset name startSlot endSlot (Nat.le_of_lt nonempty)
    (FlowGraph.stop_le_length found)
  rw [← guarded_eq_guardFinal (blockCode_inner found)]
  simp only [FlowGraph.blockCode, FlowGraph.ofCode, moved]
  rw [← between]
  by_cases enters : block.start = 0 ∧ startsWithLabel code = false
  · have behind_entry : offset code block.stop = 5 + (offset code block.stop - 5) := by
      simp only [offset]
      omega
    have entry_eq : Trace.entryCode name startSlot = (traced name startSlot endSlot code).take 5 :=
      take_entry.symm
    rw [if_pos enters, landing, if_pos enters, enters.1, offset_zero, entry_eq, List.drop_zero,
      Nat.sub_zero, ← List.take_add, ← behind_entry]
  · rw [if_neg enters, landing, if_neg enters, List.nil_append]

/-! ## Exits -/

theorem endsWith_moved (test : Instruction → Bool)
    (found : (ofCode code).blocks[id]? = some block) :
    (ofCode (traced name startSlot endSlot code)).endsWith test (moved code block) =
      (ofCode code).endsWith test block := by
  simp only [FlowGraph.endsWith, FlowGraph.ofCode,
    getElem?_terminator_moved name startSlot endSlot found]

/-- The entry sequence does not end in a return. -/
theorem not_returns_entryBlocks : ∀ block ∈ entryBlocks code,
    (ofCode (traced name startSlot endSlot code)).endsWith Instruction.isReturn block = false := by
  have last_at : (traced name startSlot endSlot code)[4]? = some (.store .long startSlot) :=
    getElem?_entry (by omega)
  intro block member
  obtain ⟨-, rfl⟩ := mem_entryBlocks.mp member
  simp [FlowGraph.endsWith, FlowGraph.ofCode, Block.terminator, last_at, Instruction.isReturn]

/-- The blocks that end in a return are those that did before. -/
theorem exitBlocks_traced (inhabited : code ≠ []) (labelled : Flow.WellLabelled code) :
    (ofCode (traced name startSlot endSlot code)).exitBlocks =
      (ofCode code).exitBlocks.map (moved code) := by
  have none_entering : (entryBlocks code).filter
      ((ofCode (traced name startSlot endSlot code)).endsWith Instruction.isReturn) = [] :=
    List.filter_eq_nil_iff.mpr fun block member => by simp [not_returns_entryBlocks block member]
  rw [FlowGraph.exitBlocks, blocks_traced inhabited labelled, List.filter_append, none_entering,
    List.nil_append, List.filter_map, FlowGraph.exitBlocks]
  congr 1
  apply List.filter_congr
  intro block member
  obtain ⟨id, found⟩ := List.mem_iff_getElem?.mp member
  exact endsWith_moved Instruction.isReturn found

theorem exitSites_traced (inhabited : code ≠ []) (labelled : Flow.WellLabelled code) :
    (ofCode (traced name startSlot endSlot code)).exitSites =
      (ofCode code).exitSites.map (position code) := by
  rw [FlowGraph.exitSites, exitBlocks_traced inhabited labelled, FlowGraph.exitSites,
    List.map_map, List.map_map]
  apply List.map_congr_left
  intro block member
  obtain ⟨id, found⟩ := List.mem_iff_getElem?.mp (List.mem_filter.mp member).1
  exact terminator_moved found

theorem fallsOffEnd_traced (inhabited : code ≠ []) :
    (ofCode (traced name startSlot endSlot code)).fallsOffEnd = (ofCode code).fallsOffEnd := by
  rw [FlowGraph.fallsOffEnd_ofCode, FlowGraph.fallsOffEnd_ofCode, getLast?_traced inhabited]

end Weaving

/-! ## Relocated graphs -/

/-- A control flow graph is another one relocated by weaving. -/
structure FlowGraph.Relocates (name : String) (startSlot endSlot : UInt16)
    (graph woven : FlowGraph) : Prop where
  /-- The blocks are the same in the same order, in their new places; the entry sequence makes up
  one in front of them if the body starts with a label. -/
  blocks : woven.blocks =
    Weaving.entryBlocks graph.code ++ graph.blocks.map (Weaving.moved graph.code)
  /-- The block in front holds the entry sequence. -/
  entryCode : ∀ block ∈ Weaving.entryBlocks graph.code,
    woven.blockCode block = (Trace.entrySequence name startSlot).instructions
  /-- A block holds what it held, with an exit sequence before its last instruction if that is a
  return.  If the body starts with no label, the entry sequence comes first in the first block. -/
  blockCode : ∀ block ∈ graph.blocks, woven.blockCode (Weaving.moved graph.code block) =
    (if block.start = 0 ∧ Weaving.startsWithLabel graph.code = false then
      (Trace.entrySequence name startSlot).instructions else []) ++
      Weaving.guardFinal (Trace.exitSequence name startSlot endSlot).instructions
        (graph.blockCode block)
  /-- A label is marked at the offset of its place, and nowhere if it was marked nowhere. -/
  labelPosition? : ∀ label, Flow.labelPosition? woven.code label =
    (Flow.labelPosition? graph.code label).map (Weaving.offset graph.code)
  /-- The blocks that end in a return are those that did. -/
  exitBlocks : woven.exitBlocks = graph.exitBlocks.map (Weaving.moved graph.code)
  /-- The exit sites are the positions of those that were. -/
  exitSites : woven.exitSites = graph.exitSites.map (Weaving.position graph.code)
  /-- Control can run off the end if it could. -/
  fallsOffEnd : woven.fallsOffEnd = graph.fallsOffEnd

open FlowGraph in
theorem Weaving.relocates_traced {name : String} {startSlot endSlot : UInt16}
    {code : List Instruction} (inhabited : code ≠ []) (labelled : Flow.WellLabelled code) :
    Relocates name startSlot endSlot (ofCode code)
      (ofCode (traced name startSlot endSlot code)) where
  blocks := blocks_traced inhabited labelled
  entryCode block member := by
    obtain ⟨-, rfl⟩ := mem_entryBlocks.mp member
    rw [Trace.entrySequence, Sequence.instructions_ofList]
    exact take_entry
  blockCode block member := by
    obtain ⟨id, found⟩ := List.mem_iff_getElem?.mp member
    simp only [Trace.entrySequence, Trace.exitSequence, Sequence.instructions_ofList]
    exact blockCode_moved found
  labelPosition? := labelPosition?_traced labelled
  exitBlocks := exitBlocks_traced inhabited labelled
  exitSites := exitSites_traced inhabited labelled
  fallsOffEnd := fallsOffEnd_traced inhabited

/-- The control flow graph of an instrumented method is that of the method before, relocated. -/
theorem Method.build_instrumented {method after : Method} {weave : Weave}
    (inhabited : method.instructions ≠ []) (woven : method.instrument = ⟨after, .ok weave⟩) :
    ∃ graph relocated, FlowGraph.build method.instructions = .ok graph ∧
      FlowGraph.build after.instructions = .ok relocated ∧
      graph.Relocates method.declaration.name weave.plan.startSlot weave.plan.endSlot
        relocated := by
  obtain ⟨-, labelled, -, rfl⟩ := instrument_eq_traced_iff.mp woven
  exact ⟨_, _, FlowGraph.build_eq_ok_iff.mpr ⟨labelled, rfl⟩,
    FlowGraph.build_eq_ok_iff.mpr ⟨Weaving.wellLabelled_traced labelled, rfl⟩,
    Weaving.relocates_traced inhabited labelled⟩

/-- A method that starts with a label, and in which a return follows a branch. -/
def Method.crossing : Method :=
  { declaration :=
      { owner := "Map", name := "cross", type := some ⟨[.int], none⟩, access := ⟨0x0008⟩
        kind := .function, annotations := .empty }
    instructions := FlowGraph.crossroads
    maxStack := 1
    maxLocals := 1 }

theorem Method.build_instrumented_crossing :
    crossing.instructions ≠ [] ∧
      crossing.instrument = ⟨crossing.instrument.method, .ok ⟨⟨1, 3, 4, 5, 5⟩, 1⟩⟩ ∧
      ∃ graph relocated, FlowGraph.build crossing.instructions = .ok graph ∧
        FlowGraph.build crossing.instrument.method.instructions = .ok relocated ∧
        graph.Relocates "cross" 1 3 relocated :=
  have inhabited : crossing.instructions ≠ [] := by decide
  have outcome : crossing.instrument.outcome = .ok ⟨⟨1, 3, 4, 5, 5⟩, 1⟩ := by decide +kernel
  have woven : crossing.instrument = ⟨crossing.instrument.method, .ok ⟨⟨1, 3, 4, 5, 5⟩, 1⟩⟩ := by
    rw [← outcome]
  ⟨inhabited, woven, build_instrumented inhabited woven⟩

end MethodTracing
