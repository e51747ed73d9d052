import MethodTracing.Flow

/-!
# Passage of control

The steps that control can take between the indices of a body, and the bodies that have a control
flow graph: those that mark no label twice and mark every label that a branch names.
-/

namespace MethodTracing

theorem Instruction.marked?_eq_some_iff {instruction : Instruction} {label : Label} :
    instruction.marked? = some label ↔ instruction = .label label := by
  cases instruction <;> simp [marked?]

theorem Instruction.endsBlock_iff {instruction : Instruction} :
    instruction.endsBlock ↔
      instruction.isReturn ∨ instruction = .athrow ∨ ∃ label, instruction = .goto label := by
  cases instruction <;> simp [endsBlock, isReturn]

theorem Instruction.branchTarget?_eq_none {instruction : Instruction}
    (goes_on : instruction.endsBlock = false) (straight : instruction.isConditional = false) :
    instruction.branchTarget? = none := by
  cases instruction <;> simp_all [endsBlock, isConditional, branchTarget?]

namespace Flow

/-- Control can pass from one index to another in one step. -/
def Passes (code : List Instruction) (source target : Nat) : Prop :=
  ∃ instruction, code[source]? = some instruction ∧
    (instruction.endsBlock = false ∧ target = source + 1 ∧ target < code.length ∨
      ∃ label, instruction.branchTarget? = some label ∧ labelPosition? code label = some target)

/-- The labels that a body marks, in order. -/
def markedLabels (code : List Instruction) : List Label :=
  code.filterMap Instruction.marked?

/-- A body whose branches all lead somewhere, and only to one place. -/
structure WellLabelled (code : List Instruction) : Prop where
  /-- No label is marked twice. -/
  distinct : (markedLabels code).Nodup
  /-- Every label that a branch names is marked. -/
  resolved : ∀ instruction ∈ code, ∀ label, instruction.branchTarget? = some label →
    label ∈ markedLabels code

theorem wellLabelled_of_straight {code : List Instruction}
    (straight : ∀ instruction ∈ code,
      instruction.marked? = none ∧ instruction.branchTarget? = none) : WellLabelled code := by
  have unmarked : markedLabels code = [] :=
    List.filterMap_eq_nil_iff.mpr fun instruction member => (straight instruction member).1
  refine ⟨by simp [unmarked], fun instruction member label branches => ?_⟩
  rw [(straight instruction member).2] at branches
  simp at branches

theorem mem_markedLabels {code : List Instruction} {label : Label} :
    label ∈ markedLabels code ↔ .label label ∈ code := by
  simp [markedLabels, Instruction.marked?_eq_some_iff]

/-- Code without labels in front of a body does not help its branches. -/
theorem WellLabelled.of_append {left right : List Instruction}
    (labelled : WellLabelled (left ++ right)) (unmarked : markedLabels left = []) :
    WellLabelled right := by
  have same : markedLabels (left ++ right) = markedLabels right := by
    simp only [markedLabels, List.filterMap_append] at unmarked ⊢
    rw [unmarked, List.nil_append]
  have distinct := labelled.distinct
  have resolved := labelled.resolved
  rw [same] at distinct resolved
  exact ⟨distinct, fun instruction member => resolved instruction (List.mem_append_right _ member)⟩

/-- Code without labels and branches in front of a body does not hinder its branches. -/
theorem WellLabelled.append {left right : List Instruction} (labelled : WellLabelled right)
    (unmarked : markedLabels left = [])
    (unbranched : ∀ instruction ∈ left, instruction.branchTarget? = none) :
    WellLabelled (left ++ right) := by
  have same : markedLabels (left ++ right) = markedLabels right := by
    simp only [markedLabels, List.filterMap_append] at unmarked ⊢
    rw [unmarked, List.nil_append]
  refine ⟨by rw [same]; exact labelled.distinct, fun instruction member label branch => ?_⟩
  rw [same]
  rcases List.mem_append.mp member with in_left | in_right
  · simp [unbranched instruction in_left] at branch
  · exact labelled.resolved instruction in_right label branch

/-! ## Places of labels -/

theorem labelPosition?_eq_some_iff {code : List Instruction} {label : Label} {index : Nat} :
    labelPosition? code label = some index ↔
      code[index]? = some (.label label) ∧
        ∀ earlier < index, code[earlier]? ≠ some (.label label) := by
  simp only [labelPosition?, List.findIdx?_eq_some_iff_getElem, beq_iff_eq,
    Instruction.marked?_eq_some_iff]
  constructor
  · rintro ⟨in_range, marked, unmarked⟩
    refine ⟨List.getElem?_eq_some_iff.mpr ⟨in_range, marked⟩, fun earlier earlier_lt found => ?_⟩
    obtain ⟨_, found⟩ := List.getElem?_eq_some_iff.mp found
    exact unmarked earlier earlier_lt found
  · rintro ⟨found, unmarked⟩
    obtain ⟨in_range, marked⟩ := List.getElem?_eq_some_iff.mp found
    refine ⟨in_range, marked, fun earlier earlier_lt again => ?_⟩
    exact unmarked earlier earlier_lt (List.getElem?_eq_some_iff.mpr ⟨_, again⟩)

theorem isSome_labelPosition? {code : List Instruction} {label : Label} :
    (labelPosition? code label).isSome ↔ label ∈ markedLabels code := by
  simp [labelPosition?, List.findIdx?_isSome, mem_markedLabels, Instruction.marked?_eq_some_iff]

/-- Where labels are distinct, the mark of a label is at one index only. -/
theorem index_eq_of_distinct {code : List Instruction} {label : Label} {left right : Nat}
    (distinct : (markedLabels code).Nodup) (at_left : code[left]? = some (.label label))
    (at_right : code[right]? = some (.label label)) : left = right := by
  induction code generalizing left right with
  | nil => simp at at_left
  | cons instruction rest ih =>
      have unmarked : ∀ {index : Nat}, rest[index]? = some (.label label) →
          instruction ≠ .label label := by
        rintro index found rfl
        have marked : label ∈ markedLabels rest :=
          mem_markedLabels.mpr (List.mem_of_getElem? found)
        have fresh : label ∉ markedLabels rest := by
          simpa [markedLabels, Instruction.marked?] using (List.nodup_cons.mp distinct).1
        exact fresh marked
      have rest_distinct : (markedLabels rest).Nodup :=
        distinct.sublist ((List.sublist_cons_self instruction rest).filterMap _)
      cases left with
      | zero =>
          cases right with
          | zero => rfl
          | succ right => exact absurd (by simpa using at_left) (unmarked (by simpa using at_right))
      | succ left =>
          cases right with
          | zero => exact absurd (by simpa using at_right) (unmarked (by simpa using at_left))
          | succ right =>
              have same : left = right :=
                ih rest_distinct (by simpa using at_left) (by simpa using at_right)
              rw [same]

/-- Where labels are distinct, a label leads to any index that marks it. -/
theorem labelPosition?_of_distinct {code : List Instruction} {label : Label} {index : Nat}
    (distinct : (markedLabels code).Nodup) (found : code[index]? = some (.label label)) :
    labelPosition? code label = some index := by
  rw [labelPosition?_eq_some_iff]
  refine ⟨found, fun earlier earlier_lt again => ?_⟩
  have same := index_eq_of_distinct distinct again found
  omega

/-! ## Bodies that have a graph -/

theorem repeatedLabel?_eq_none_iff {seen : List Label} {code : List Instruction} :
    repeatedLabel? seen code = none ↔
      (markedLabels code).Nodup ∧ ∀ label ∈ markedLabels code, label ∉ seen := by
  induction code generalizing seen with
  | nil => simp [repeatedLabel?, markedLabels]
  | cons instruction rest ih =>
      simp only [repeatedLabel?]
      split
      · rename_i unmarked
        rw [ih]
        simp [markedLabels, unmarked]
      · rename_i label marked
        have labels_eq : markedLabels (instruction :: rest) = label :: markedLabels rest := by
          simp [markedLabels, marked]
        rw [labels_eq, List.nodup_cons]
        split
        · rename_i label_seen
          simp only [reduceCtorEq, false_iff]
          rintro ⟨-, unseen⟩
          exact unseen label List.mem_cons_self label_seen
        · rename_i label_unseen
          rw [ih]
          constructor
          · rintro ⟨distinct, unseen⟩
            refine ⟨⟨fun again => unseen label again List.mem_cons_self, distinct⟩, ?_⟩
            rintro other other_marked other_seen
            rcases List.mem_cons.mp other_marked with rfl | later
            · exact label_unseen other_seen
            · exact unseen other later (List.mem_cons_of_mem label other_seen)
          · rintro ⟨⟨fresh, distinct⟩, unseen⟩
            refine ⟨distinct, fun other later other_seen => ?_⟩
            rcases List.mem_cons.mp other_seen with rfl | seen_before
            · exact fresh later
            · exact unseen other (List.mem_cons_of_mem label later) seen_before

theorem danglingBranch?_eq_none_iff {code part : List Instruction} {index : Nat} :
    danglingBranch? code index part = none ↔
      ∀ instruction ∈ part, ∀ label, instruction.branchTarget? = some label →
        label ∈ markedLabels code := by
  induction part generalizing index with
  | nil => simp [danglingBranch?]
  | cons instruction rest ih =>
      simp only [danglingBranch?, List.forall_mem_cons]
      split
      · rename_i no_branch
        simp [ih, no_branch]
      · rename_i label branch
        split
        · rename_i marked
          simp [ih, branch, isSome_labelPosition?.mp marked]
        · rename_i unmarked
          simp [branch, mt isSome_labelPosition?.mpr unmarked]

end Flow

namespace FlowGraph

open MethodTracing.Flow

/-- The blocks of a body, whether or not its branches lead anywhere. -/
def ofCode (code : List Instruction) : FlowGraph :=
  ⟨code, blocksFrom code (leaders code) 0 (ranges code.length (leaders code))⟩

/-- Exactly the well-labelled bodies have a graph. -/
theorem build_eq_ok_iff {code : List Instruction} {graph : FlowGraph} :
    build code = .ok graph ↔ WellLabelled code ∧ graph = ofCode code := by
  have labelled : WellLabelled code ↔
      repeatedLabel? [] code = none ∧ danglingBranch? code 0 code = none := by
    rw [repeatedLabel?_eq_none_iff, danglingBranch?_eq_none_iff]
    constructor
    · rintro ⟨distinct, resolved⟩
      exact ⟨⟨distinct, by simp⟩, resolved⟩
    · rintro ⟨⟨distinct, -⟩, resolved⟩
      exact ⟨distinct, resolved⟩
  rw [labelled, build]
  cases repeated : repeatedLabel? [] code with
  | some label => simp
  | none =>
      cases dangling : danglingBranch? code 0 code with
      | some branch => simp
      | none => simp [ofCode, eq_comm]

end FlowGraph
end MethodTracing
