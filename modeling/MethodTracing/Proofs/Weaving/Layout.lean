import MethodTracing.Proofs.Flow.Straight
import MethodTracing.Weaving

/-!
# The layout of a woven body

A woven body is the entry sequence followed by the original instructions, each return behind a copy
of the exit sequence.  Where the instructions of the original body stand in it follows from the
number of returns before them; labels keep their marks.

Main statement: the methods that can be instrumented, and the body and the limits that they get.
-/

namespace MethodTracing

@[simp]
theorem Trace.length_entryCode (name : String) (startSlot : UInt16) :
    (Trace.entryCode name startSlot).length = 5 := rfl

@[simp]
theorem Trace.length_exitCode (name : String) (startSlot endSlot : UInt16) :
    (Trace.exitCode name startSlot endSlot).length = 16 := rfl

namespace Weaving

/-- What stands for one instruction in a woven body. -/
def group (exit : List Instruction) (instruction : Instruction) : List Instruction :=
  if instruction.isReturn then exit ++ [instruction] else [instruction]

/-- A body with a sequence before every return. -/
def guarded (exit code : List Instruction) : List Instruction :=
  code.flatMap (group exit)

/-- A woven body. -/
def traced (name : String) (startSlot endSlot : UInt16) (code : List Instruction) :
    List Instruction :=
  Trace.entryCode name startSlot ++ guarded (Trace.exitCode name startSlot endSlot) code

/-- Index in the woven body of the first instruction that stands for the one at `index`. -/
def offset (code : List Instruction) (index : Nat) : Nat :=
  5 + index + 16 * (code.take index).countP Instruction.isReturn

/-- Index in the woven body of the instruction that was at `index`. -/
def position (code : List Instruction) (index : Nat) : Nat :=
  5 + index + 16 * (code.take (index + 1)).countP Instruction.isReturn

/-! ## Inserting before returns -/

/-- Inserting a sequence at the indices of all returns puts it before every return. -/
theorem insertAt_returns {exit code : List Instruction} {sites : List Nat} {index : Nat}
    (ascending : sites.Pairwise (· < ·)) (above : ∀ site ∈ sites, index ≤ site)
    (mem_iff : ∀ place, index + place ∈ sites ↔
      ∃ instruction, code[place]? = some instruction ∧ instruction.isReturn) :
    insertAt exit sites index code = guarded exit code ∧
      sites.length = code.countP Instruction.isReturn := by
  induction code generalizing sites index with
  | nil =>
      have empty : sites = [] := by
        apply List.eq_nil_iff_forall_not_mem.mpr
        intro site member
        have := mem_iff (site - index)
        rw [Nat.add_sub_cancel' (above site member)] at this
        simpa using this.mp member
      simp [empty, insertAt, guarded]
  | cons first rest ih =>
      have first_iff := mem_iff 0
      have rest_iff : ∀ {later : List Nat}, (∀ site, index < site → (site ∈ later ↔ site ∈ sites)) →
          ∀ place, index + 1 + place ∈ later ↔
            ∃ instruction, rest[place]? = some instruction ∧ instruction.isReturn := by
        intro later same place
        rw [same _ (by omega), show index + 1 + place = index + (place + 1) by omega, mem_iff]
        simp
      by_cases returns : first.isReturn
      · have here : index ∈ sites := first_iff.mpr ⟨first, rfl, returns⟩
        obtain ⟨site, later, rfl⟩ := List.exists_cons_of_ne_nil (List.ne_nil_of_mem here)
        obtain ⟨site_lt, later_ascending⟩ := List.pairwise_cons.mp ascending
        have site_eq : site = index := by
          rcases List.mem_cons.mp here with same | later_here
          · exact same.symm
          · have := site_lt index later_here
            have := above site List.mem_cons_self
            omega
        subst site_eq
        obtain ⟨rest_eq, rest_length⟩ :=
          ih later_ascending site_lt
            (rest_iff fun other other_lt => by simp [show other ≠ site by omega])
        refine ⟨?_, by simp [rest_length, returns]⟩
        simp [insertAt, rest_eq, guarded, group, returns]
      · have absent : index ∉ sites := fun member => by
          obtain ⟨_, same, is_return⟩ := first_iff.mp member
          obtain rfl : first = _ := by simpa using same
          exact returns is_return
        obtain ⟨rest_eq, rest_length⟩ := ih ascending
          (fun other member => Nat.lt_of_le_of_ne (above other member)
            (by rintro rfl; exact absent member))
          (rest_iff fun other _ => Iff.rfl)
        refine ⟨?_, by simp [rest_length, returns]⟩
        cases sites with
        | nil => simp [insertAt, rest_eq, guarded, group, returns]
        | cons site later =>
            have different : site ≠ index := by
              rintro rfl
              exact absent List.mem_cons_self
            simp [insertAt, rest_eq, guarded, group, returns, different]

theorem insertAt_exitSites (exit code : List Instruction) :
    insertAt exit (FlowGraph.ofCode code).exitSites 0 code = guarded exit code ∧
      (FlowGraph.ofCode code).exitSites.length = code.countP Instruction.isReturn := by
  apply insertAt_returns (FlowGraph.exitSites_pairwise code) (fun site _ => Nat.zero_le site)
  intro place
  rw [Nat.zero_add]
  exact FlowGraph.mem_exitSites

/-- Nothing is inserted into code without returns. -/
theorem guarded_of_no_return {exit code : List Instruction}
    (no_return : ∀ instruction ∈ code, instruction.isReturn = false) :
    guarded exit code = code := by
  induction code with
  | nil => rfl
  | cons first rest ih =>
      rw [List.forall_mem_cons] at no_return
      have rest_eq : rest.flatMap (group exit) = rest := ih no_return.2
      simp [guarded, group, no_return.1, rest_eq]

theorem guarded_append (exit left right : List Instruction) :
    guarded exit (left ++ right) = guarded exit left ++ guarded exit right :=
  List.flatMap_append

theorem straight_entryCode (name : String) (startSlot : UInt16) :
    Flow.Straight (Trace.entryCode name startSlot) := by
  simp [Flow.Straight, Trace.entryCode, Instruction.marked?, Instruction.breaks,
    Instruction.endsBlock, Instruction.isConditional]

theorem straight_exitCode (name : String) (startSlot endSlot : UInt16) :
    Flow.Straight (Trace.exitCode name startSlot endSlot) := by
  simp [Flow.Straight, Trace.exitCode, Instruction.marked?, Instruction.breaks,
    Instruction.endsBlock, Instruction.isConditional]

theorem entryCode_no_return (name : String) (startSlot : UInt16) :
    ∀ instruction ∈ Trace.entryCode name startSlot, instruction.isReturn = false :=
  (straight_entryCode name startSlot).isReturn_eq_false

/-! ## Places -/

section Places

variable {name : String} {startSlot endSlot : UInt16} {code : List Instruction}

theorem length_guarded (exit code : List Instruction) :
    (guarded exit code).length = code.length + exit.length * code.countP Instruction.isReturn := by
  induction code with
  | nil => simp [guarded]
  | cons first rest ih =>
      simp only [guarded, List.flatMap_cons, List.length_append] at ih ⊢
      rw [ih]
      by_cases returns : first.isReturn
      · simp [group, returns, Nat.mul_add]
        omega
      · simp [group, returns]
        omega

/-- From the offset of an index on, a woven body is the rest of the original body, guarded. -/
theorem drop_offset {index : Nat} (in_range : index ≤ code.length) :
    (traced name startSlot endSlot code).drop (offset code index) =
      guarded (Trace.exitCode name startSlot endSlot) (code.drop index) := by
  have split : traced name startSlot endSlot code =
      (Trace.entryCode name startSlot ++
        guarded (Trace.exitCode name startSlot endSlot) (code.take index)) ++
      guarded (Trace.exitCode name startSlot endSlot) (code.drop index) := by
    rw [List.append_assoc, ← guarded_append, List.take_append_drop]
    rfl
  rw [split]
  apply List.drop_left'
  simp [length_guarded, offset, List.length_take_of_le in_range]
  omega

theorem offset_zero (code : List Instruction) : offset code 0 = 5 := by
  simp [offset]

theorem offset_succ (code : List Instruction) (index : Nat) :
    offset code (index + 1) = position code index + 1 := by
  simp only [offset, position]
  omega

theorem length_traced :
    (traced name startSlot endSlot code).length = offset code code.length := by
  simp only [traced, List.length_append, Trace.length_entryCode, length_guarded,
    Trace.length_exitCode, offset, List.take_length]
  omega

theorem traced_ne_nil : traced name startSlot endSlot code ≠ [] := by
  simp [traced, Trace.entryCode]

theorem position_eq {index : Nat} {instruction : Instruction}
    (found : code[index]? = some instruction) :
    position code index = offset code index + if instruction.isReturn then 16 else 0 := by
  simp only [position, offset, List.take_add_one, found, List.countP_append, Option.toList_some]
  by_cases returns : instruction.isReturn
  · simp [returns]
    omega
  · simp [returns]

theorem offset_lt_offset {left right : Nat} (before : left < right) :
    offset code left < offset code right := by
  have fewer : (code.take left).countP Instruction.isReturn ≤
      (code.take right).countP Instruction.isReturn :=
    (List.take_sublist_take_left (Nat.le_of_lt before)).countP_le
  simp only [offset]
  omega

theorem offset_le_offset (code : List Instruction) {left right : Nat} (ordered : left ≤ right) :
    offset code left ≤ offset code right := by
  rcases Nat.lt_or_eq_of_le ordered with before | rfl
  · exact Nat.le_of_lt (offset_lt_offset before)
  · exact Nat.le_refl _

theorem length_group (instruction : Instruction) :
    (group (Trace.exitCode name startSlot endSlot) instruction).length =
      1 + if instruction.isReturn then 16 else 0 := by
  by_cases returns : instruction.isReturn
  · simp [group, returns]
  · simp [group, returns]

theorem offset_succ_eq {index : Nat} {instruction : Instruction}
    (found : code[index]? = some instruction) :
    offset code (index + 1) =
      offset code index + (group (Trace.exitCode name startSlot endSlot) instruction).length := by
  rw [offset_succ, position_eq found, length_group]
  omega

/-- What stands for an instruction stands from its offset on. -/
theorem getElem?_group {index place : Nat} {instruction inserted : Instruction}
    (found : code[index]? = some instruction)
    (inserted_at : (group (Trace.exitCode name startSlot endSlot) instruction)[place]? =
      some inserted) :
    (traced name startSlot endSlot code)[offset code index + place]? = some inserted := by
  obtain ⟨in_range, rfl⟩ := List.getElem?_eq_some_iff.mp found
  rw [← List.getElem?_drop, drop_offset (Nat.le_of_lt in_range),
    List.drop_eq_getElem_cons in_range]
  simp only [guarded, List.flatMap_cons]
  rw [List.getElem?_append_left (List.getElem?_eq_some_iff.mp inserted_at).1]
  exact inserted_at

/-- An instruction stands at its position. -/
theorem getElem?_position {index : Nat} {instruction : Instruction}
    (found : code[index]? = some instruction) :
    (traced name startSlot endSlot code)[position code index]? = some instruction := by
  rw [position_eq found]
  apply getElem?_group found
  by_cases returns : instruction.isReturn
  · rw [group, if_pos returns, if_pos returns, List.getElem?_append_right (by simp)]
    rfl
  · simp [group, returns]

/-- Woven bodies end as the original ones do. -/
theorem getLast?_traced (inhabited : code ≠ []) :
    (traced name startSlot endSlot code).getLast? = code.getLast? := by
  have nonempty : 0 < code.length := List.length_pos_iff.mpr inhabited
  have last_at := List.getElem?_eq_getElem (show code.length - 1 < code.length by omega)
  rw [List.getLast?_eq_getElem?, List.getLast?_eq_getElem?, last_at, length_traced]
  rw [← getElem?_position last_at]
  have behind := offset_succ code (code.length - 1)
  rw [show code.length - 1 + 1 = code.length by omega] at behind
  rw [behind, Nat.add_sub_cancel]

/-- The exit sequence stands before every return. -/
theorem getElem?_exit {index place : Nat} {instruction : Instruction}
    (found : code[index]? = some instruction) (returns : instruction.isReturn)
    (in_exit : place < 16) :
    (traced name startSlot endSlot code)[offset code index + place]? =
      (Trace.exitCode name startSlot endSlot)[place]? := by
  obtain ⟨inserted, inserted_at⟩ : ∃ inserted,
      (Trace.exitCode name startSlot endSlot)[place]? = some inserted :=
    ⟨_, List.getElem?_eq_getElem (by simpa using in_exit)⟩
  rw [inserted_at]
  apply getElem?_group found
  rwa [group, if_pos returns, List.getElem?_append_left (by simpa using in_exit)]

/-- The entry sequence stands first. -/
theorem getElem?_entry {place : Nat} (in_entry : place < 5) :
    (traced name startSlot endSlot code)[place]? = (Trace.entryCode name startSlot)[place]? := by
  rw [traced, List.getElem?_append_left (by simpa using in_entry)]

theorem take_entry :
    (traced name startSlot endSlot code).take 5 = Trace.entryCode name startSlot :=
  List.take_left' (Trace.length_entryCode name startSlot)

theorem getElem?_offset_length :
    (traced name startSlot endSlot code)[offset code code.length]? = none :=
  List.getElem?_eq_none (Nat.le_of_eq length_traced)

/-! ## Labels -/

theorem markedLabels_traced :
    Flow.markedLabels (traced name startSlot endSlot code) = Flow.markedLabels code := by
  have guarded_eq : Flow.markedLabels (guarded (Trace.exitCode name startSlot endSlot) code) =
      Flow.markedLabels code := by
    induction code with
    | nil => rfl
    | cons first rest ih =>
        simp only [Flow.markedLabels, guarded, List.flatMap_cons, List.filterMap_append] at ih ⊢
        rw [ih]
        by_cases returns : first.isReturn
        · cases first <;> simp_all [Instruction.isReturn]
          rfl
        · rw [group, if_neg returns, ← List.filterMap_append, List.singleton_append]
  rw [traced, Flow.markedLabels, List.filterMap_append]
  exact guarded_eq

theorem mem_traced {instruction : Instruction}
    (member : instruction ∈ traced name startSlot endSlot code) :
    instruction ∈ Trace.entryCode name startSlot ∨
      instruction ∈ Trace.exitCode name startSlot endSlot ∨ instruction ∈ code := by
  rcases List.mem_append.mp member with in_entry | in_guarded
  · exact Or.inl in_entry
  · obtain ⟨source, source_member, in_group⟩ := List.mem_flatMap.mp in_guarded
    simp only [group] at in_group
    split at in_group
    · rcases List.mem_append.mp in_group with in_exit | same
      · exact Or.inr (Or.inl in_exit)
      · exact Or.inr (Or.inr (List.mem_singleton.mp same ▸ source_member))
    · exact Or.inr (Or.inr (List.mem_singleton.mp in_group ▸ source_member))

theorem entryCode_unbroken : ∀ instruction ∈ Trace.entryCode name startSlot,
    instruction.breaks = false :=
  fun instruction member => (straight_entryCode name startSlot instruction member).2

theorem exitCode_unbroken : ∀ instruction ∈ Trace.exitCode name startSlot endSlot,
    instruction.breaks = false :=
  fun instruction member => (straight_exitCode name startSlot endSlot instruction member).2

theorem wellLabelled_traced (labelled : Flow.WellLabelled code) :
    Flow.WellLabelled (traced name startSlot endSlot code) := by
  refine ⟨by rw [markedLabels_traced]; exact labelled.distinct,
    fun instruction member label branch => ?_⟩
  rw [markedLabels_traced]
  rcases mem_traced member with in_entry | in_exit | in_code
  · simp [Instruction.branchTarget?_of_not_breaks (entryCode_unbroken _ in_entry)] at branch
  · simp [Instruction.branchTarget?_of_not_breaks (exitCode_unbroken _ in_exit)] at branch
  · exact labelled.resolved instruction in_code label branch

/-- Labels move with the instructions. -/
theorem labelPosition?_traced (labelled : Flow.WellLabelled code) (label : Label) :
    Flow.labelPosition? (traced name startSlot endSlot code) label =
      (Flow.labelPosition? code label).map (offset code) := by
  cases placed : Flow.labelPosition? code label with
  | none =>
      have unmarked : label ∉ Flow.markedLabels (traced name startSlot endSlot code) := by
        rw [markedLabels_traced, ← Flow.isSome_labelPosition?]
        simp [placed]
      rw [← Flow.isSome_labelPosition?] at unmarked
      simpa using unmarked
  | some index =>
      have marked := (Flow.labelPosition?_eq_some_iff.mp placed).1
      have moved : (traced name startSlot endSlot code)[position code index]? =
          some (.label label) := getElem?_position marked
      rw [position_eq marked] at moved
      exact Flow.labelPosition?_of_distinct (wellLabelled_traced labelled).distinct moved

/-- Control passes from the position of an instruction to the offsets of those that it passed to. -/
theorem passes_position_iff (labelled : Flow.WellLabelled code) {index target : Nat}
    {instruction : Instruction} (found : code[index]? = some instruction) :
    Flow.Passes (traced name startSlot endSlot code) (position code index) target ↔
      ∃ source, Flow.Passes code index source ∧ target = offset code source := by
  have index_lt := (List.getElem?_eq_some_iff.mp found).1
  simp only [Flow.Passes, getElem?_position found, found, Option.some.injEq, exists_eq_left',
    labelPosition?_traced labelled, Option.map_eq_some_iff, length_traced, ← offset_succ]
  constructor
  · rintro (⟨goes_on, rfl, target_lt⟩ | ⟨label, branch, source, placed, rfl⟩)
    · refine ⟨index + 1, Or.inl ⟨goes_on, rfl, ?_⟩, rfl⟩
      by_contra at_end
      rw [show index + 1 = code.length by omega] at target_lt
      exact Nat.lt_irrefl _ target_lt
    · exact ⟨source, Or.inr ⟨label, branch, placed⟩, rfl⟩
  · rintro ⟨source, ⟨goes_on, rfl, source_lt⟩ | ⟨label, branch, placed⟩, rfl⟩
    · exact Or.inl ⟨goes_on, rfl, offset_lt_offset source_lt⟩
    · exact Or.inr ⟨label, branch, source, placed, rfl⟩

end Places

end Weaving

/-! ## Instrumented methods -/

/-- A method is another one with tracing woven into it; annotations apart, its declaration is the
same. -/
structure Instrumented (before after : Method) (plan : FramePlan) : Prop where
  /-- The declarations agree in all but the annotations. -/
  declaration : after.declaration =
    { before.declaration with annotations := after.declaration.annotations }
  /-- The body is the woven body. -/
  instructions : after.instructions =
    Weaving.traced before.declaration.name plan.startSlot plan.endSlot before.instructions
  /-- Branches of the original body lead somewhere. -/
  labelled : Flow.WellLabelled before.instructions
  /-- The start time is kept past the declared locals. -/
  startSlot : plan.startSlot.toNat = before.maxLocals.toNat
  /-- The end time is kept past the start time. -/
  endSlot : plan.endSlot.toNat = before.maxLocals.toNat + 2
  /-- The locals hold both times. -/
  maxLocals : after.maxLocals.toNat = before.maxLocals.toNat + 4
  /-- The stack has room for the injected sequences. -/
  maxStack : after.maxStack.toNat = before.maxStack.toNat + 4

/-- Marking an instrumented method leaves it instrumented. -/
theorem Instrumented.tagTraced {before after : Method} {plan : FramePlan}
    (woven : Instrumented before after plan) : Instrumented before after.tagTraced plan := by
  refine ⟨?_, woven.instructions, woven.labelled, woven.startSlot, woven.endSlot, woven.maxLocals,
    woven.maxStack⟩
  simp only [Method.tagTraced, Declaration.tagTraced]
  rw [woven.declaration]

theorem FramePlan.ofLimits_ok {maxStack maxLocals : UInt16} {plan : FramePlan}
    (planned : ofLimits maxStack maxLocals = .ok plan) :
    plan.startSlot.toNat = maxLocals.toNat ∧ plan.endSlot.toNat = maxLocals.toNat + 2 ∧
      plan.maxLocals.toNat = maxLocals.toNat + 4 ∧ plan.maxStack.toNat = maxStack.toNat + 4 := by
  have injected : injectedDepth = 4 := by decide
  simp only [ofLimits, injected, timestampSlots, slotCeiling] at planned
  split at planned
  · simp at planned
  · split at planned
    · simp at planned
    · obtain rfl := Except.ok.inj planned
      refine ⟨rfl, ?_, ?_, ?_⟩ <;>
        · simp only [UInt16.toNat_ofNat', Nat.reducePow]
          omega

namespace Method

variable {method after : Method} {startSlot endSlot : UInt16}

theorem instructions_weaveEntry : (method.weaveEntry startSlot).instructions =
    Trace.entryCode method.declaration.name startSlot ++ method.instructions := by
  simp [weaveEntry, Trace.entrySequence]

/-- A body has a control flow graph behind the entry sequence if it has one alone. -/
theorem wellLabelled_weaveEntry_iff (startSlot : UInt16) :
    Flow.WellLabelled (method.weaveEntry startSlot).instructions ↔
      Flow.WellLabelled method.instructions := by
  rw [instructions_weaveEntry]
  constructor
  · exact fun labelled => labelled.of_append rfl
  · exact (Weaving.straight_entryCode _ _).wellLabelled_append

/-- The sites of an entered body are the returns of the body, since the entry sequence has none. -/
theorem insertAt_weaveEntry (method : Method) (startSlot endSlot : UInt16) :
    Weaving.insertAt (Trace.exitCode method.declaration.name startSlot endSlot)
        (FlowGraph.ofCode (method.weaveEntry startSlot).instructions).exitSites 0
        (method.weaveEntry startSlot).instructions =
      Weaving.traced method.declaration.name startSlot endSlot method.instructions ∧
    (FlowGraph.ofCode (method.weaveEntry startSlot).instructions).exitSites.length =
      method.returnCount := by
  have no_return := Weaving.entryCode_no_return method.declaration.name startSlot
  rw [(Weaving.insertAt_exitSites _ _).1, (Weaving.insertAt_exitSites [] _).2,
    instructions_weaveEntry]
  constructor
  · rw [Weaving.guarded_append, Weaving.guarded_of_no_return no_return]
    rfl
  · rw [List.countP_append,
      List.countP_eq_zero.mpr fun instruction member => by simp [no_return _ member], Nat.zero_add]
    rfl

/-- Behind the entry sequence the exits of a body are woven if the body has a control flow graph. -/
theorem weaveExits_weaveEntry_eq_ok_iff {sites : Nat} :
    (method.weaveEntry startSlot).weaveExits startSlot endSlot = ⟨after, .ok sites⟩ ↔
      Flow.WellLabelled method.instructions ∧ sites = method.returnCount ∧
        after = { method with
          instructions :=
            Weaving.traced method.declaration.name startSlot endSlot method.instructions } := by
  obtain ⟨body_eq, sites_eq⟩ := insertAt_weaveEntry method startSlot endSlot
  have declaration_eq : (method.weaveEntry startSlot).declaration = method.declaration := rfl
  rw [← wellLabelled_weaveEntry_iff startSlot, weaveExits]
  cases built : FlowGraph.build (method.weaveEntry startSlot).instructions with
  | error cause =>
      have unlabelled : ¬Flow.WellLabelled (method.weaveEntry startSlot).instructions :=
        fun labelled => by simp [FlowGraph.build_eq_ok_iff.mpr ⟨labelled, rfl⟩] at built
      simp [unlabelled]
  | ok graph =>
      obtain ⟨labelled, rfl⟩ := FlowGraph.build_eq_ok_iff.mp built
      simp only [Trace.exitSequence, Sequence.instructions_ofList, declaration_eq, body_eq,
        sites_eq, Attempt.mk.injEq, Except.ok.injEq, labelled, true_and]
      exact ⟨fun ⟨after_eq, sites_eq⟩ => ⟨sites_eq.symm, after_eq.symm⟩,
        fun ⟨sites_eq, after_eq⟩ => ⟨after_eq.symm, sites_eq.symm⟩⟩

theorem framePlan_eq_ok_iff {plan : FramePlan} :
    method.framePlan = .ok plan ↔
      FramePlan.ofLimits method.maxStack method.maxLocals = .ok plan := by
  rw [framePlan]
  cases FramePlan.ofLimits method.maxStack method.maxLocals <;> simp [Except.mapError]

/-- When a method is instrumented, what weaving counts, and what becomes of the method. -/
theorem instrument_eq_traced_iff {weave : Weave} :
    method.instrument = ⟨after, .ok weave⟩ ↔
      FramePlan.ofLimits method.maxStack method.maxLocals = .ok weave.plan ∧
      Flow.WellLabelled method.instructions ∧ weave.exitSites = method.returnCount ∧
      after = { method with
        instructions := Weaving.traced method.declaration.name weave.plan.startSlot
          weave.plan.endSlot method.instructions
        maxStack := weave.plan.maxStack
        maxLocals := weave.plan.maxLocals } := by
  rw [← framePlan_eq_ok_iff, instrument]
  cases planned : method.framePlan with
  | error cause => simp
  | ok plan =>
      simp only [Except.ok.injEq]
      rcases exits : (method.weaveEntry plan.startSlot).weaveExits plan.startSlot plan.endSlot with
        ⟨exited, cause | sites⟩
      · have unlabelled : ¬Flow.WellLabelled method.instructions := fun labelled => by
          rw [weaveExits_weaveEntry_eq_ok_iff.mpr ⟨labelled, rfl, rfl⟩] at exits
          simp at exits
        simp [unlabelled]
      · obtain ⟨labelled, rfl, rfl⟩ := weaveExits_weaveEntry_eq_ok_iff.mp exits
        obtain ⟨weavePlan, exitSites⟩ := weave
        simp only [Attempt.mk.injEq, Except.ok.injEq, Weave.mk.injEq, labelled, true_and]
        constructor
        · rintro ⟨rfl, rfl, rfl⟩
          exact ⟨rfl, rfl, rfl⟩
        · rintro ⟨rfl, rfl, rfl⟩
          exact ⟨rfl, rfl, rfl⟩

/-- A method is instrumented if its frame can be planned and its body has a control flow graph.
Then the entry sequence stands in front, and each return of the body, whether or not control can
reach it, has become an exit sequence and the return; any other instruction is kept. -/
theorem instrument_eq_ok_iff {weave : Weave} :
    method.instrument = ⟨after, .ok weave⟩ ↔
      FramePlan.ofLimits method.maxStack method.maxLocals = .ok weave.plan ∧
      Flow.WellLabelled method.instructions ∧ weave.exitSites = method.returnCount ∧
      after = { method with
        instructions :=
          (Trace.entrySequence method.declaration.name weave.plan.startSlot).instructions ++
            method.instructions.flatMap fun instruction =>
              if instruction.isReturn then
                (Trace.exitSequence method.declaration.name weave.plan.startSlot
                  weave.plan.endSlot).instructions ++ [instruction]
              else [instruction]
        maxStack := weave.plan.maxStack
        maxLocals := weave.plan.maxLocals } := by
  rw [instrument_eq_traced_iff]
  simp only [Trace.entrySequence, Trace.exitSequence, Sequence.instructions_ofList]
  rfl

/-- Instrumenting a method that can be planned and labelled weaves its body and raises its limits;
it counts every return. -/
theorem instrument_eq_ok {weave : Weave} (woven : method.instrument = ⟨after, .ok weave⟩) :
    Instrumented method after weave.plan ∧ after.declaration = method.declaration ∧
      weave.exitSites = method.returnCount := by
  obtain ⟨planned, labelled, sites_eq, rfl⟩ := instrument_eq_traced_iff.mp woven
  obtain ⟨start_eq, end_eq, locals_eq, stack_eq⟩ := FramePlan.ofLimits_ok planned
  exact ⟨⟨rfl, rfl, labelled, start_eq, end_eq, locals_eq, stack_eq⟩, rfl, sites_eq⟩

end Method
end MethodTracing
