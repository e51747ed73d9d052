import MethodTracing.Proofs.Flow.Blocks

/-!
# Straight code in front of a body

Straight code marks no labels and does not branch.  In front of a body it begins at most one block,
and it neither hides a defect nor adds one; all that changes is where things stand.
-/

namespace MethodTracing

/-- A defect as it is named once so many instructions stand in front of the body. -/
def FlowError.behind (count : Nat) : FlowError → FlowError
  | .duplicateLabel label => .duplicateLabel label
  | .undefinedLabel index label => .undefinedLabel (index + count) label

namespace Flow

/-- Code that marks no labels and through which control runs straight on. -/
def Straight (code : List Instruction) : Prop :=
  ∀ instruction ∈ code, instruction.marked? = none ∧ instruction.breaks = false

variable {front code : List Instruction}

theorem Straight.markedLabels_eq_nil (straight : Straight front) : markedLabels front = [] :=
  List.filterMap_eq_nil_iff.mpr fun instruction member => (straight instruction member).1

theorem Straight.markedLabels_append (straight : Straight front) :
    markedLabels (front ++ code) = markedLabels code := by
  have unmarked := straight.markedLabels_eq_nil
  simp only [markedLabels, List.filterMap_append] at unmarked ⊢
  rw [unmarked, List.nil_append]

/-- A body whose branches all lead somewhere stays so behind straight code. -/
theorem Straight.wellLabelled_append (straight : Straight front) (labelled : WellLabelled code) :
    WellLabelled (front ++ code) :=
  labelled.append straight.markedLabels_eq_nil fun instruction member =>
    Instruction.branchTarget?_of_not_breaks (straight instruction member).2

theorem Straight.isReturn_eq_false (straight : Straight front) :
    ∀ instruction ∈ front, instruction.isReturn = false := by
  intro instruction member
  cases returns : instruction.isReturn with
  | false => rfl
  | true =>
      have unbroken := (straight instruction member).2
      simp [Instruction.breaks, Instruction.endsBlock_of_isReturn returns] at unbroken

/-! ## Leaders -/

/-- Where no block begins anyway, straight code begins none. -/
theorem leadersFrom_append_of_not_fresh (straight : Straight front) (index : Nat) :
    leadersFrom index false (front ++ code) = leadersFrom (index + front.length) false code := by
  induction front generalizing index with
  | nil => rfl
  | cons first rest ih =>
      obtain ⟨⟨unmarked, unbroken⟩, rest_straight⟩ := List.forall_mem_cons.mp straight
      rw [List.cons_append, leadersFrom_cons, unmarked, unbroken, ih rest_straight,
        List.length_cons, Nat.add_assoc, Nat.add_comm 1]
      rfl

/-- Straight code takes over the block that begins with it, whatever comes behind. -/
theorem leadersFrom_append (straight : Straight front) (nonempty : front ≠ []) (index : Nat)
    (fresh : Bool) :
    leadersFrom index fresh (front ++ code) =
      (if fresh then [index] else []) ++ leadersFrom (index + front.length) false code := by
  cases fresh with
  | false => exact leadersFrom_append_of_not_fresh straight index
  | true =>
      obtain ⟨first, rest, rfl⟩ := List.exists_cons_of_ne_nil nonempty
      obtain ⟨⟨-, unbroken⟩, rest_straight⟩ := List.forall_mem_cons.mp straight
      rw [List.cons_append, leadersFrom_cons, unbroken,
        leadersFrom_append_of_not_fresh rest_straight, List.length_cons, Nat.add_assoc,
        Nat.add_comm 1, Bool.true_or]

/-! ## Defects -/

theorem repeatedLabel?_append (straight : Straight front) (seen : List Label) :
    repeatedLabel? seen (front ++ code) = repeatedLabel? seen code := by
  induction front with
  | nil => rfl
  | cons first rest ih =>
      obtain ⟨⟨unmarked, -⟩, rest_straight⟩ := List.forall_mem_cons.mp straight
      rw [List.cons_append, repeatedLabel?, unmarked]
      exact ih rest_straight

/-- Straight code has no branch to search for. -/
theorem danglingBranch?_append (straight : Straight front) (whole : List Instruction)
    (index : Nat) :
    danglingBranch? whole index (front ++ code) =
      danglingBranch? whole (index + front.length) code := by
  induction front generalizing index with
  | nil => rfl
  | cons first rest ih =>
      obtain ⟨⟨-, unbroken⟩, rest_straight⟩ := List.forall_mem_cons.mp straight
      rw [List.cons_append, danglingBranch?, Instruction.branchTarget?_of_not_breaks unbroken]
      simp only
      rw [ih rest_straight, List.length_cons, Nat.add_assoc, Nat.add_comm 1]

/-- Where the same labels are marked, the search finds the same branch, wherever it begins. -/
theorem danglingBranch?_add {whole : List Instruction}
    (same : ∀ label, (labelPosition? whole label).isSome = (labelPosition? code label).isSome)
    (part : List Instruction) (index count : Nat) :
    danglingBranch? whole (index + count) part =
      (danglingBranch? code index part).map fun branch => (branch.1 + count, branch.2) := by
  induction part generalizing index with
  | nil => rfl
  | cons first rest ih =>
      have later := ih (index + 1)
      rw [Nat.add_right_comm] at later
      simp only [danglingBranch?]
      cases first.branchTarget? with
      | none => exact later
      | some label =>
          simp only [same label]
          split
          · exact later
          · rfl

theorem isSome_labelPosition?_append (straight : Straight front) (label : Label) :
    (labelPosition? (front ++ code) label).isSome = (labelPosition? code label).isSome := by
  rw [Bool.eq_iff_iff, isSome_labelPosition?, isSome_labelPosition?, straight.markedLabels_append]

end Flow

namespace FlowGraph

open MethodTracing.Flow

/-- Straight code in front of a body leaves the body its defect; where the defect names an index,
the index moves with the body. -/
theorem build_append_eq_error_iff {front code : List Instruction} {cause : FlowError}
    (straight : Straight front) :
    build (front ++ code) = .error cause ↔
      ∃ own, build code = .error own ∧ cause = own.behind front.length := by
  have dangling : danglingBranch? (front ++ code) 0 (front ++ code) =
      (danglingBranch? code 0 code).map fun branch => (branch.1 + front.length, branch.2) := by
    rw [danglingBranch?_append straight]
    exact danglingBranch?_add (isSome_labelPosition?_append straight) code 0 front.length
  rw [build, build, repeatedLabel?_append straight, dangling]
  cases repeatedLabel? [] code with
  | some label => simp [FlowError.behind, eq_comm]
  | none =>
      cases danglingBranch? code 0 code with
      | some branch => simp [FlowError.behind, eq_comm]
      | none => simp

end FlowGraph
end MethodTracing
