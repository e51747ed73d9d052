import MethodTracing.Proofs.Verification.Depths

/-!
# Exploration

Walking the blocks of a body from a stack of waiting ones finds exactly the visits that control can
make.  It succeeds if and only if every reached instruction fits and every reached index has one
depth; what it records is then the tally of a survey.
-/

namespace MethodTracing
namespace Verification

open FlowGraph (ofCode)

/-! ## Arrivals -/

/-- What arriving at blocks with the stack at a depth does to a frontier. -/
structure Arrival (depth : Nat) (before after : Frontier) (ids : List Nat) : Prop where
  /-- No block comes or goes. -/
  size : after.depths.length = before.depths.length
  /-- Depths that were known stay. -/
  kept : ∀ {id known : Nat}, before.depths[id]? = some (some known) →
    after.depths[id]? = some (some known)
  /-- All the blocks are known afterwards. -/
  arrived : ∀ {id : Nat}, id ∈ ids → id < before.depths.length →
    after.depths[id]? = some (some depth)
  /-- A block that becomes known is one of them, and waits. -/
  origin : ∀ {id known : Nat}, after.depths[id]? = some (some known) →
    before.depths[id]? = some (some known) ∨ id ∈ ids ∧ known = depth ∧ id ∈ after.waiting
  /-- Blocks go on waiting. -/
  still_waiting : ∀ {id : Nat}, id ∈ before.waiting → id ∈ after.waiting
  /-- A block that begins to wait was not known. -/
  newly_waiting : ∀ {id : Nat}, id ∈ after.waiting →
    id ∈ before.waiting ∨ before.depths[id]? = some none ∧ after.depths[id]? = some (some depth)
  /-- No block waits twice. -/
  distinct : before.waiting.Nodup →
    (∀ id ∈ before.waiting, ∃ known, before.depths[id]? = some (some known)) →
      after.waiting.Nodup

theorem Arrival.none (depth : Nat) (frontier : Frontier) : Arrival depth frontier frontier [] where
  size := rfl
  kept known := known
  arrived member := by simp at member
  origin known := Or.inl known
  still_waiting waits := waits
  newly_waiting waits := Or.inl waits
  distinct distinct _ := distinct

theorem Arrival.trans {depth : Nat} {before between after : Frontier} {left right : List Nat}
    (first : Arrival depth before between left) (second : Arrival depth between after right) :
    Arrival depth before after (left ++ right) where
  size := second.size.trans first.size
  kept known := second.kept (first.kept known)
  arrived := by
    intro id member in_range
    rcases List.mem_append.mp member with in_left | in_right
    · exact second.kept (first.arrived in_left in_range)
    · exact second.arrived in_right (by rw [first.size]; exact in_range)
  origin := by
    intro id known found
    rcases second.origin found with found_between | ⟨member, depth_eq, waits⟩
    · rcases first.origin found_between with found_before | ⟨member, depth_eq, waits⟩
      · exact Or.inl found_before
      · exact Or.inr ⟨List.mem_append_left _ member, depth_eq, second.still_waiting waits⟩
    · exact Or.inr ⟨List.mem_append_right _ member, depth_eq, waits⟩
  still_waiting waits := second.still_waiting (first.still_waiting waits)
  newly_waiting := by
    intro id waits
    rcases second.newly_waiting waits with waits_between | ⟨unknown, found⟩
    · rcases first.newly_waiting waits_between with waits_before | ⟨unknown, found⟩
      · exact Or.inl waits_before
      · exact Or.inr ⟨unknown, second.kept found⟩
    · refine Or.inr ⟨?_, found⟩
      have in_range : id < before.depths.length := by
        rw [← first.size]
        exact (List.getElem?_eq_some_iff.mp unknown).1
      cases earlier : before.depths[id] with
      | none => simp [earlier, in_range]
      | some known =>
          have found_before : before.depths[id]? = some (some known) := by
            simp [earlier, in_range]
          rw [first.kept found_before] at unknown
          simp at unknown
  distinct := by
    intro distinct_before known_before
    apply second.distinct (first.distinct distinct_before known_before)
    intro id waits
    rcases first.newly_waiting waits with waits_before | ⟨-, found⟩
    · obtain ⟨known, found⟩ := known_before id waits_before
      exact ⟨known, first.kept found⟩
    · exact ⟨depth, found⟩

theorem arrival_of_arrive {blocks : List Block} {depth id : Nat} {before after : Frontier}
    (arrived : Frontier.arrive blocks depth before id = .ok after) :
    Arrival depth before after [id] := by
  unfold Frontier.arrive at arrived
  split at arrived
  · rename_i unknown
    obtain rfl := Except.ok.inj arrived
    have in_range : id < before.depths.length := (List.getElem?_eq_some_iff.mp unknown).1
    have set_at : (before.depths.set id (some depth))[id]? = some (some depth) := by
      simp [in_range]
    have set_other : ∀ {other : Nat}, other ≠ id →
        (before.depths.set id (some depth))[other]? = before.depths[other]? := by
      intro other different
      exact List.getElem?_set_ne different.symm
    refine ⟨by simp, ?_, ?_, ?_, ?_, ?_, ?_⟩
    · intro other known found
      have different : other ≠ id := by
        rintro rfl
        simp [found] at unknown
      simpa [set_other different] using found
    · intro other member _
      obtain rfl := List.mem_singleton.mp member
      exact set_at
    · intro other known found
      by_cases same : other = id
      · subst same
        rw [set_at] at found
        exact Or.inr ⟨by simp, by simpa [eq_comm] using found, by simp⟩
      · exact Or.inl (by simpa [set_other same] using found)
    · intro other waits
      exact List.mem_cons_of_mem id waits
    · intro other waits
      rcases List.mem_cons.mp waits with rfl | waits_before
      · exact Or.inr ⟨unknown, set_at⟩
      · exact Or.inl waits_before
    · intro distinct known_before
      refine List.nodup_cons.mpr ⟨fun waits => ?_, distinct⟩
      obtain ⟨known, found⟩ := known_before id waits
      simp [found] at unknown
  · rename_i first known
    split at arrived
    · rename_i same
      obtain rfl := Except.ok.inj arrived
      refine { Arrival.none depth before with arrived := ?_, origin := Or.inl }
      intro other member _
      obtain rfl := List.mem_singleton.mp member
      rw [known, same]
    · simp at arrived
  · rename_i absent
    obtain rfl := Except.ok.inj arrived
    refine { Arrival.none depth before with arrived := ?_, origin := Or.inl }
    intro other member in_range
    obtain rfl := List.mem_singleton.mp member
    simp [in_range] at absent

theorem arrival_of_arriveAll {blocks : List Block} {depth : Nat} {ids : List Nat}
    {before after : Frontier} (arrived : Frontier.arriveAll blocks depth before ids = .ok after) :
    Arrival depth before after ids := by
  induction ids generalizing before with
  | nil =>
      obtain rfl := Except.ok.inj arrived
      exact Arrival.none depth before
  | cons id rest ih =>
      simp only [Frontier.arriveAll] at arrived
      split at arrived
      · simp at arrived
      · rename_i between first_arrived
        exact (arrival_of_arrive first_arrived).trans (ih arrived)

/-- An arrival that fails comes to a block that is known at another depth. -/
theorem exists_clash_of_arriveAll {blocks : List Block} {depth : Nat} {ids : List Nat}
    {before : Frontier} {cause : VerifyError}
    (failed : Frontier.arriveAll blocks depth before ids = .error cause) :
    ∃ id ∈ ids, ∃ known, before.depths[id]? = some (some known) ∧ known ≠ depth := by
  induction ids generalizing before with
  | nil => simp [Frontier.arriveAll] at failed
  | cons id rest ih =>
      simp only [Frontier.arriveAll] at failed
      split at failed
      · rename_i first_failed
        unfold Frontier.arrive at first_failed
        split at first_failed
        · simp at first_failed
        · rename_i first known
          split at first_failed
          · simp at first_failed
          · rename_i different
            exact ⟨id, List.mem_cons_self, first, known, different⟩
        · simp at first_failed
      · rename_i between first_arrived
        obtain ⟨other, member, known, found, different⟩ := ih failed
        rcases (arrival_of_arrive first_arrived).origin found with found_before | ⟨-, same, -⟩
        · exact ⟨other, List.mem_cons_of_mem id member, known, found_before, different⟩
        · exact absurd same different

/-! ## Walked blocks -/

section Walk

variable {code : List Instruction} {id depth : Nat} {block : Block}

/-- The visits of a walk over a block lie in the block. -/
theorem visit_inside (found : (ofCode code).blocks[id]? = some block) {visit : Visit}
    (member : visit ∈ visits block.start depth ((ofCode code).blockCode block)) :
    (block.start ≤ visit.index ∧ visit.index < block.stop) ∧
      code[visit.index]? = some visit.instruction := by
  obtain ⟨offset, index_eq, instruction_at, -⟩ := mem_visits.mp member
  have offset_lt : offset < block.stop - block.start := by
    rw [← FlowGraph.length_blockCode found]
    exact (List.getElem?_eq_some_iff.mp instruction_at).1
  rw [FlowGraph.getElem?_blockCode (by omega), ← index_eq] at instruction_at
  exact ⟨by omega, instruction_at⟩

/-- Whatever a walk over a reached block visits is reached. -/
theorem reached_of_visit (found : (ofCode code).blocks[id]? = some block)
    (reached : Reached code block.start depth) {visit : Visit}
    (member : visit ∈ visits block.start depth ((ofCode code).blockCode block)) :
    Reached code visit.index visit.depth := by
  have in_block : ∀ {offset : Nat} {instruction : Instruction},
      ((ofCode code).blockCode block)[offset]? = some instruction →
        block.start + offset < block.stop := by
    intro offset instruction instruction_at
    have offset_lt := (List.getElem?_eq_some_iff.mp instruction_at).1
    rw [FlowGraph.length_blockCode found] at offset_lt
    omega
  refine reached_of_run ?_ ?_ reached member
  · intro offset instruction instruction_at
    rw [← FlowGraph.getElem?_blockCode (in_block instruction_at), instruction_at]
  · intro offset instruction instruction_at more
    rw [FlowGraph.length_blockCode found] at more
    have placed : some instruction = code[block.start + offset]? := by
      rw [← FlowGraph.getElem?_blockCode (in_block instruction_at), instruction_at]
    obtain ⟨same, same_at, unbroken⟩ :=
      FlowGraph.not_breaks_inside found (show block.start ≤ block.start + offset by omega)
        (by omega)
    obtain rfl := Option.some.inj (placed.trans same_at)
    exact unbroken

/-- A walk over a reached block brings its last depth to the start of each successor. -/
theorem reached_successor (found : (ofCode code).blocks[id]? = some block)
    (reached : Reached code block.start depth) {successor : Nat} {next : Block}
    (member : successor ∈ block.successors)
    (next_at : (ofCode code).blocks[successor]? = some next) :
    Reached code next.start (final depth ((ofCode code).blockCode block)) := by
  have nonempty := FlowGraph.start_lt_stop found
  have length_eq := FlowGraph.length_blockCode found
  obtain ⟨last, last_member, last_index, -⟩ :=
    exists_visit block.start depth (show block.stop - 1 - block.start <
      ((ofCode code).blockCode block).length by omega)
  have terminator_eq : last.index = block.terminator := by
    simp only [Block.terminator]
    omega
  have passes := (FlowGraph.passes_terminator_iff found).mpr ⟨successor, member, next, next_at, rfl⟩
  rw [← terminator_eq] at passes
  rw [← after_last_visit last_member (by omega)]
  exact .pass (reached_of_visit found reached last_member) (visit_inside found last_member).2 passes

end Walk

/-! ## The invariant -/

/-- A block is walked once it is known and waits no longer. -/
def Walked (frontier : Frontier) (id depth : Nat) : Prop :=
  frontier.depths[id]? = some (some depth) ∧ id ∉ frontier.waiting

/-- What holds before each turn of an exploration that has made the visits `seen`. -/
structure Explored (limits : FrameLimits) (code : List Instruction) (frontier : Frontier)
    (seen : List Visit) : Prop where
  /-- There is a depth for each block. -/
  size : frontier.depths.length = (ofCode code).blocks.length
  /-- The first block is known. -/
  start : frontier.depths[0]? = some (some 0)
  /-- Known depths are depths of paths. -/
  reached : ∀ {id depth : Nat} {block : Block}, frontier.depths[id]? = some (some depth) →
    (ofCode code).blocks[id]? = some block → Reached code block.start depth
  /-- Only known blocks wait. -/
  known : ∀ id ∈ frontier.waiting, ∃ depth, frontier.depths[id]? = some (some depth)
  /-- No block waits twice. -/
  distinct_waiting : frontier.waiting.Nodup
  /-- The visits are those of the walked blocks. -/
  mem_seen : ∀ visit : Visit, visit ∈ seen ↔
    ∃ (id depth : Nat) (block : Block), Walked frontier id depth ∧
      (ofCode code).blocks[id]? = some block ∧
        visit ∈ visits block.start depth ((ofCode code).blockCode block)
  /-- No index is visited twice. -/
  distinct : (seen.map Visit.index).Nodup
  /-- Every visited instruction fits. -/
  fits : ∀ visit ∈ seen, Fits limits visit.depth visit.instruction
  /-- The successors of a walked block are known at the depth of its end. -/
  closed : ∀ {id depth : Nat} {block : Block}, Walked frontier id depth →
    (ofCode code).blocks[id]? = some block → ∀ successor ∈ block.successors,
      frontier.depths[successor]? = some (some (final depth ((ofCode code).blockCode block)))

/-- Every reached instruction fits, and every reached index has one depth. -/
structure Consistent (limits : FrameLimits) (code : List Instruction) : Prop where
  /-- Reached instructions keep to the limits. -/
  fits : ∀ {index depth : Nat} {instruction : Instruction}, Reached code index depth →
    code[index]? = some instruction → Fits limits depth instruction
  /-- All paths to an index bring the same depth. -/
  unique : ∀ {index first second : Nat}, Reached code index first → Reached code index second →
    first = second

namespace Explored

variable {limits : FrameLimits} {code : List Instruction} {frontier : Frontier} {seen : List Visit}

theorem initial (inhabited : code ≠ []) :
    Explored limits code (.initial (ofCode code).blocks.length) [] := by
  obtain ⟨first, first_at, first_start⟩ :=
    FlowGraph.exists_block_of_leader (Flow.leaders_cons_zero inhabited)
  obtain ⟨count, count_eq⟩ : ∃ count, (ofCode code).blocks.length = count + 1 :=
    Nat.exists_eq_succ_of_ne_zero
      (Nat.ne_of_gt (Nat.zero_lt_of_lt (List.getElem?_eq_some_iff.mp first_at).1))
  rw [count_eq]
  have known_first : ∀ {id depth : Nat},
      (some 0 :: List.replicate count none)[id]? = some (some depth) → id = 0 ∧ depth = 0 := by
    intro id depth found
    cases id with
    | zero => exact ⟨rfl, by simpa [eq_comm] using found⟩
    | succ id => simp [List.getElem?_replicate] at found
  have none_walked : ∀ {id depth : Nat}, ¬Walked (.initial (count + 1)) id depth := by
    rintro id depth ⟨found, free⟩
    exact free (by simp [Frontier.initial, (known_first found).1])
  refine ⟨?_, rfl, ?_, ?_, ?_, ?_, ?_, ?_, ?_⟩
  · simp [Frontier.initial, count_eq]
  · intro id depth block found block_at
    obtain ⟨rfl, rfl⟩ := known_first found
    obtain rfl := Option.some.inj (first_at.symm.trans block_at)
    rw [first_start]
    exact .start
  · intro id waits
    obtain rfl : id = 0 := by simpa [Frontier.initial] using waits
    exact ⟨0, rfl⟩
  · simp [Frontier.initial]
  · intro visit
    simp [none_walked]
  · simp
  · simp
  · intro id depth block walked
    exact absurd walked none_walked

/-- The indices of a walk over a block that waits are new. -/
theorem index_fresh (explored : Explored limits code frontier seen) {id depth : Nat}
    {block : Block} (waits : id ∈ frontier.waiting)
    (block_at : (ofCode code).blocks[id]? = some block) {visit earlier : Visit}
    (member : visit ∈ visits block.start depth ((ofCode code).blockCode block))
    (earlier_seen : earlier ∈ seen) : earlier.index ≠ visit.index := by
  obtain ⟨other, otherDepth, otherBlock, ⟨-, free⟩, other_at, earlier_member⟩ :=
    (explored.mem_seen earlier).mp earlier_seen
  intro same
  have inside := (visit_inside block_at member).1
  rw [← same] at inside
  have same_block := FlowGraph.block_unique block_at other_at inside
    (visit_inside other_at earlier_member).1
  exact free (same_block ▸ waits)

/-- The blocks that are walked after a turn are those walked before and the one of this turn. -/
theorem walked_turn_iff {id depth leaves : Nat} {rest ids : List Nat} {next : Frontier}
    (waiting_eq : frontier.waiting = id :: rest) (fresh : id ∉ rest)
    (depth_at : frontier.depths[id]? = some (some depth))
    (arrival : Arrival leaves ⟨frontier.depths, rest⟩ next ids) {other known : Nat} :
    Walked next other known ↔ Walked frontier other known ∨ other = id ∧ known = depth := by
  constructor
  · rintro ⟨found, free⟩
    rcases arrival.origin found with found_before | ⟨-, -, waits_after⟩
    · by_cases same : other = id
      · subst same
        exact Or.inr ⟨rfl, by simpa [eq_comm] using depth_at.symm.trans found_before⟩
      · refine Or.inl ⟨found_before, fun waits_before => free ?_⟩
        rw [waiting_eq] at waits_before
        exact arrival.still_waiting ((List.mem_cons.mp waits_before).resolve_left same)
    · exact absurd waits_after free
  · -- A block that is known by now does not begin to wait.
    have free_of : ∀ {other known : Nat}, frontier.depths[other]? = some (some known) →
        other ∉ rest → other ∉ next.waiting := by
      intro other known found free waits_after
      rcases arrival.newly_waiting waits_after with waits_before | ⟨unknown, -⟩
      · exact free waits_before
      · simp [found] at unknown
    rintro (⟨found, free⟩ | ⟨rfl, rfl⟩)
    · refine ⟨arrival.kept found, free_of found fun in_rest => free ?_⟩
      simp [waiting_eq, in_rest]
    · exact ⟨arrival.kept depth_at, free_of depth_at fresh⟩

/-- One turn: a waiting block is walked, and its successors are arrived at. -/
theorem turn (explored : Explored limits code frontier seen) {id depth : Nat} {rest : List Nat}
    {block : Block} {next : Frontier} (waiting_eq : frontier.waiting = id :: rest)
    (block_at : (ofCode code).blocks[id]? = some block)
    (depth_at : frontier.depths[id]? = some (some depth))
    (fits : ∀ visit ∈ visits block.start depth ((ofCode code).blockCode block),
      Fits limits visit.depth visit.instruction)
    (arrived : Frontier.arriveAll (ofCode code).blocks
      (final depth ((ofCode code).blockCode block)) ⟨frontier.depths, rest⟩ block.successors =
        .ok next) :
    Explored limits code next
      (seen ++ visits block.start depth ((ofCode code).blockCode block)) := by
  have arrival := arrival_of_arriveAll arrived
  have waits : id ∈ frontier.waiting := by simp [waiting_eq]
  have distinct_waiting := explored.distinct_waiting
  rw [waiting_eq] at distinct_waiting
  obtain ⟨fresh, distinct_rest⟩ := List.nodup_cons.mp distinct_waiting
  have known_rest : ∀ other ∈ rest, ∃ known, frontier.depths[other]? = some (some known) :=
    fun other other_waits => explored.known other (by simp [waiting_eq, other_waits])
  have walked_iff : ∀ {other known : Nat}, Walked next other known ↔
      Walked frontier other known ∨ other = id ∧ known = depth :=
    walked_turn_iff waiting_eq fresh depth_at arrival
  refine ⟨arrival.size.trans explored.size, arrival.kept explored.start, ?_, ?_,
    arrival.distinct distinct_rest known_rest, ?_, ?_, ?_, ?_⟩
  · intro other known otherBlock found other_at
    rcases arrival.origin found with found_before | ⟨member, rfl, -⟩
    · exact explored.reached found_before other_at
    · exact reached_successor block_at (explored.reached depth_at block_at) member other_at
  · intro other other_waits
    rcases arrival.newly_waiting other_waits with waits_before | ⟨-, found⟩
    · obtain ⟨known, found⟩ := known_rest other waits_before
      exact ⟨known, arrival.kept found⟩
    · exact ⟨_, found⟩
  · intro visit
    rw [List.mem_append, explored.mem_seen]
    constructor
    · rintro (⟨other, known, otherBlock, walked, other_at, member⟩ | member)
      · exact ⟨other, known, otherBlock, walked_iff.mpr (Or.inl walked), other_at, member⟩
      · exact ⟨id, depth, block, walked_iff.mpr (Or.inr ⟨rfl, rfl⟩), block_at, member⟩
    · rintro ⟨other, known, otherBlock, walked, other_at, member⟩
      rcases walked_iff.mp walked with walked_before | ⟨rfl, rfl⟩
      · exact Or.inl ⟨other, known, otherBlock, walked_before, other_at, member⟩
      · obtain rfl := Option.some.inj (block_at.symm.trans other_at)
        exact Or.inr member
  · rw [List.map_append, List.nodup_append']
    refine ⟨explored.distinct, ?_, ?_⟩
    · rw [map_index_visits]
      exact List.nodup_range'
    · intro index in_seen in_visits
      obtain ⟨earlier, earlier_seen, rfl⟩ := List.mem_map.mp in_seen
      obtain ⟨visit, member, same⟩ := List.mem_map.mp in_visits
      exact explored.index_fresh waits block_at member earlier_seen same.symm
  · intro visit member
    rcases List.mem_append.mp member with earlier | now
    · exact explored.fits visit earlier
    · exact fits visit now
  · intro other known otherBlock walked other_at successor member
    rcases walked_iff.mp walked with walked_before | ⟨rfl, rfl⟩
    · exact arrival.kept (explored.closed walked_before other_at successor member)
    · obtain rfl := Option.some.inj (block_at.symm.trans other_at)
      obtain ⟨_, successor_at⟩ := FlowGraph.exists_successor block_at member
      apply arrival.arrived member
      simpa [explored.size] using (List.getElem?_eq_some_iff.mp successor_at).1

/-- The first instruction of a walked block is visited. -/
theorem exists_first_visit (explored : Explored limits code frontier seen) {id depth : Nat}
    {block : Block} (walked : Walked frontier id depth)
    (block_at : (ofCode code).blocks[id]? = some block) :
    ∃ visit ∈ seen, visit.index = block.start ∧ visit.depth = depth := by
  have nonempty := FlowGraph.start_lt_stop block_at
  have length_eq := FlowGraph.length_blockCode block_at
  obtain ⟨visit, member, index_eq, depth_eq⟩ :=
    exists_visit block.start depth (show 0 < ((ofCode code).blockCode block).length by omega)
  exact ⟨visit, (explored.mem_seen visit).mpr ⟨id, depth, block, walked, block_at, member⟩,
    index_eq, depth_eq⟩

/-- Once no block waits, the visits are a survey. -/
theorem survey (explored : Explored limits code frontier seen) (inhabited : code ≠ [])
    (done : frontier.waiting = []) : Survey limits code seen := by
  refine ⟨fun visit => ⟨fun member => ?_, ?_⟩, explored.distinct, explored.fits⟩
  · obtain ⟨id, depth, block, walked, block_at, member⟩ := (explored.mem_seen visit).mp member
    exact ⟨reached_of_visit block_at (explored.reached walked.1 block_at) member,
      (visit_inside block_at member).2⟩
  · rintro ⟨reached, found⟩
    have walked_of : ∀ {id depth : Nat}, frontier.depths[id]? = some (some depth) →
        Walked frontier id depth := fun found => ⟨found, by simp [done]⟩
    refine Survey.exists_visit_of_closed ?_ (fun visit member => ?_)
      (fun visit member target passes => ?_) reached found
    · obtain ⟨first, first_at, first_start⟩ :=
        FlowGraph.exists_block_of_leader (Flow.leaders_cons_zero inhabited)
      obtain ⟨visit, member, index_eq, depth_eq⟩ :=
        explored.exists_first_visit (walked_of explored.start) first_at
      exact ⟨visit, member, index_eq.trans first_start, depth_eq⟩
    · obtain ⟨_, _, _, _, block_at, member⟩ := (explored.mem_seen visit).mp member
      exact (visit_inside block_at member).2
    · obtain ⟨id, entry, block, walked, block_at, visit_member⟩ :=
        (explored.mem_seen visit).mp member
      obtain ⟨⟨from_start, before_stop⟩, visit_at⟩ := visit_inside block_at visit_member
      have length_eq := FlowGraph.length_blockCode block_at
      by_cases inside : visit.index + 1 < block.stop
      · obtain rfl := (FlowGraph.passes_inside_iff block_at from_start inside).mp passes
        obtain ⟨next, next_member, next_index, next_depth⟩ :=
          exists_next_visit visit_member (by omega)
        exact ⟨next, (explored.mem_seen next).mpr
          ⟨id, entry, block, walked, block_at, next_member⟩, next_index, next_depth⟩
      · have last : visit.index = block.terminator := by
          simp only [Block.terminator]
          omega
        rw [last] at passes
        obtain ⟨successor, successor_member, nextBlock, next_at, rfl⟩ :=
          (FlowGraph.passes_terminator_iff block_at).mp passes
        rw [after_last_visit visit_member (by omega)]
        exact explored.exists_first_visit
          (walked_of (explored.closed walked block_at successor successor_member)) next_at

end Explored

/-! ## Outcomes -/

section Unfolding

variable {limits : FrameLimits} {graph : FlowGraph} {frontier : Frontier} {usage : FrameUsage}
  {id : Nat} {rest : List Nat} {block : Block}

theorem explore_of_walk_error (waiting_eq : frontier.waiting = id :: rest)
    (block_at : graph.blocks[id]? = some block) {cause : VerifyError}
    (failed : walk limits block.start ((frontier.depths[id]?.join).getD 0) usage
      (graph.blockCode block) = .error cause) :
    explore limits graph frontier usage = .error cause := by
  rw [explore]
  split
  · simp_all
  · rename_i id' rest' waiting_eq'
    obtain ⟨rfl, rfl⟩ := List.cons.inj (waiting_eq.symm.trans waiting_eq')
    simp [block_at, failed]

theorem explore_of_arrive_error (waiting_eq : frontier.waiting = id :: rest)
    (block_at : graph.blocks[id]? = some block) {leaves : Nat} {walkedUsage : FrameUsage}
    (walked : walk limits block.start ((frontier.depths[id]?.join).getD 0) usage
      (graph.blockCode block) = .ok (leaves, walkedUsage)) {cause : VerifyError}
    (failed : Frontier.arriveAll graph.blocks leaves ⟨frontier.depths, rest⟩ block.successors =
      .error cause) :
    explore limits graph frontier usage = .error cause := by
  rw [explore]
  split
  · simp_all
  · rename_i id' rest' waiting_eq'
    obtain ⟨rfl, rfl⟩ := List.cons.inj (waiting_eq.symm.trans waiting_eq')
    simp only [block_at, walked]
    split <;> simp_all

theorem explore_of_arrive_ok (waiting_eq : frontier.waiting = id :: rest)
    (block_at : graph.blocks[id]? = some block) {leaves : Nat} {walkedUsage : FrameUsage}
    (walked : walk limits block.start ((frontier.depths[id]?.join).getD 0) usage
      (graph.blockCode block) = .ok (leaves, walkedUsage)) {next : Frontier}
    (arrived : Frontier.arriveAll graph.blocks leaves ⟨frontier.depths, rest⟩ block.successors =
      .ok next) :
    explore limits graph frontier usage = explore limits graph next walkedUsage := by
  rw [explore]
  split
  · simp_all
  · rename_i id' rest' waiting_eq'
    obtain ⟨rfl, rfl⟩ := List.cons.inj (waiting_eq.symm.trans waiting_eq')
    simp only [block_at, walked]
    split <;> simp_all

end Unfolding

/-- What an exploration comes to from any point: a survey with its tally, or an inconsistency. -/
theorem explore_cases {limits : FrameLimits} {code : List Instruction} (inhabited : code ≠ [])
    (base : FrameUsage) (frontier : Frontier) (usage : FrameUsage) (seen : List Visit)
    (explored : Explored limits code frontier seen) (usage_eq : usage = tally base seen) :
    (∃ found, explore limits (ofCode code) frontier usage = .ok (tally base found) ∧
      Survey limits code found) ∨
    (∃ cause, explore limits (ofCode code) frontier usage = .error cause) ∧
      ¬Consistent limits code := by
  induction frontier, usage using explore.induct limits (ofCode code) generalizing seen with
  | case1 frontier usage done =>
      refine Or.inl ⟨seen, ?_, explored.survey inhabited done⟩
      rw [explore, usage_eq]
      split
      · rfl
      · simp_all
  | case2 frontier usage id rest waiting_eq absent ih =>
      obtain ⟨depth, known⟩ := explored.known id (by simp [waiting_eq])
      have in_range := (List.getElem?_eq_some_iff.mp known).1
      rw [explored.size] at in_range
      simp [in_range] at absent
  | case3 frontier usage id rest waiting_eq block block_at depth cause walk_failed =>
      refine Or.inr ⟨⟨cause, explore_of_walk_error waiting_eq block_at walk_failed⟩,
        fun consistent => ?_⟩
      obtain ⟨known, known_at⟩ := explored.known id (by simp [waiting_eq])
      obtain ⟨visit, member, unfit⟩ := exists_unfit_of_walk walk_failed
      rw [show depth = known by simp [depth, known_at]] at member
      exact unfit (consistent.fits
        (reached_of_visit block_at (explored.reached known_at block_at) member)
        (visit_inside block_at member).2)
  | case4 frontier usage id rest waiting_eq block block_at depth leaves walkedUsage walked cause
      arrival_failed =>
      refine Or.inr ⟨⟨cause, explore_of_arrive_error waiting_eq block_at walked arrival_failed⟩,
        fun consistent => ?_⟩
      obtain ⟨known, known_at⟩ := explored.known id (by simp [waiting_eq])
      obtain ⟨successor, member, other, other_at, different⟩ :=
        exists_clash_of_arriveAll arrival_failed
      obtain ⟨next, next_at⟩ := FlowGraph.exists_successor block_at member
      obtain ⟨-, answer_eq⟩ := walk_eq_ok_iff.mp walked
      obtain rfl : leaves = final depth ((ofCode code).blockCode block) :=
        congrArg Prod.fst answer_eq
      rw [show depth = known by simp [depth, known_at]] at different
      exact different (consistent.unique (explored.reached other_at next_at)
        (reached_successor block_at (explored.reached known_at block_at) member next_at))
  | case5 frontier usage id rest waiting_eq block block_at depth leaves walkedUsage walked next
      arrived _ ih =>
      obtain ⟨known, known_at⟩ := explored.known id (by simp [waiting_eq])
      obtain ⟨fits, answer_eq⟩ := walk_eq_ok_iff.mp walked
      obtain ⟨rfl, rfl⟩ := Prod.mk.inj answer_eq
      have depth_eq : depth = known := by simp [depth, known_at]
      rw [explore_of_arrive_ok waiting_eq block_at walked arrived]
      rw [depth_eq] at fits arrived
      apply ih _ (explored.turn waiting_eq block_at known_at fits arrived)
      rw [tally_append, usage_eq, depth_eq]

theorem Survey.consistent {limits : FrameLimits} {code : List Instruction} {seen : List Visit}
    (survey : Survey limits code seen) (inhabited : code ≠ []) : Consistent limits code :=
  ⟨survey.fits_of_reached, survey.depth_unique inhabited⟩

end Verification

namespace Method

open Verification

/-- The arguments of a method that verifies fit into its locals. -/
theorem argumentSlots_le_of_verify {method : Method} {usage : FrameUsage}
    (verified : method.verify = .ok usage) :
    method.declaration.argumentSlots ≤ method.limits.maxLocals := by
  by_contra too_many
  simp [verify, Nat.not_le.mp too_many] at verified

/-- A non-empty body verifies exactly if its arguments fit into its locals, its branches lead
somewhere, it does not run off its end, and it has a survey; the usage is the survey's tally. -/
theorem verify_eq_ok_iff {method : Method} (inhabited : method.instructions ≠ [])
    {usage : FrameUsage} :
    method.verify = .ok usage ↔
      method.declaration.argumentSlots ≤ method.limits.maxLocals ∧
      Flow.WellLabelled method.instructions ∧
      (FlowGraph.ofCode method.instructions).fallsOffEnd = false ∧
      ∃ seen, Survey method.limits method.instructions seen ∧
        usage = tally ⟨0, method.declaration.argumentSlots, 0⟩ seen := by
  have explored := explore_cases inhabited ⟨0, method.declaration.argumentSlots, 0⟩
    _ _ [] (Explored.initial inhabited : Explored method.limits _ _ []) rfl
  simp only [verify]
  split
  · rename_i too_many
    simp [Nat.not_le.mpr too_many]
  · rename_i arguments_fit
    cases built : FlowGraph.build method.instructions with
    | error cause =>
        have unlabelled : ¬Flow.WellLabelled method.instructions := fun labelled => by
          rw [FlowGraph.build_eq_ok_iff.mpr ⟨labelled, rfl⟩] at built
          simp at built
        simp [unlabelled]
    | ok graph =>
        obtain ⟨labelled, rfl⟩ := FlowGraph.build_eq_ok_iff.mp built
        simp only [Nat.not_lt.mp arguments_fit, labelled, true_and]
        cases falls : (FlowGraph.ofCode method.instructions).fallsOffEnd with
        | true => simp
        | false =>
            simp only [Bool.false_eq_true, if_false, true_and]
            rcases explored with ⟨seen, explored_eq, survey⟩ | ⟨⟨cause, failed⟩, inconsistent⟩
            · simp only [tally, List.foldl_nil] at explored_eq
              rw [explored_eq]
              constructor
              · intro usage_eq
                exact ⟨seen, survey, (Except.ok.inj usage_eq).symm⟩
              · rintro ⟨other, other_survey, rfl⟩
                rw [tally_perm (other_survey.perm survey)]
                rfl
            · simp only [tally, List.foldl_nil] at failed
              rw [failed]
              constructor
              · simp
              · rintro ⟨other, other_survey, rfl⟩
                exact absurd (other_survey.consistent inhabited) inconsistent

end Method
end MethodTracing
