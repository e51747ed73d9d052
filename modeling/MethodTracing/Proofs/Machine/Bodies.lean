import Mathlib.Tactic.Common
import MethodTracing.Machine.Body
import MethodTracing.Proofs.Flow.Passage

/-!
# Places of labels in bodies

A body sends a label to its last mark, control flow to the first one.  Where no label is marked
twice both are the same.
-/

namespace MethodTracing
namespace Machine

theorem lastMarking?_eq_none_iff {label : Label} {index : Nat} {code : List Instruction} :
    lastMarking? label index code = none ↔ label ∉ Flow.markedLabels code := by
  rw [Flow.mem_markedLabels]
  induction code generalizing index with
  | nil => simp [lastMarking?]
  | cons first rest ih =>
      simp only [lastMarking?, List.mem_cons, not_or]
      cases later : lastMarking? label (index + 1) rest with
      | none =>
          simp only [ite_eq_right_iff, reduceCtorEq, imp_false, Instruction.marked?_eq_some_iff,
            ih.mp later, not_false_eq_true, and_true, eq_comm (a := first)]
      | some position =>
          have marked : .label label ∈ rest := by
            by_contra unmarked
            rw [ih.mpr unmarked] at later
            simp at later
          simp [marked]

theorem getElem?_of_lastMarking? {label : Label} {index position : Nat} {code : List Instruction}
    (last : lastMarking? label index code = some position) :
    ∃ place, position = index + place ∧ code[place]? = some (.label label) := by
  induction code generalizing index with
  | nil => simp [lastMarking?] at last
  | cons first rest ih =>
      simp only [lastMarking?] at last
      split at last
      · rename_i position' later
        obtain rfl := Option.some.inj last
        obtain ⟨place, rfl, marked⟩ := ih later
        exact ⟨place + 1, by omega, by simpa using marked⟩
      · split at last
        · rename_i marked
          obtain rfl := Option.some.inj last
          exact ⟨0, rfl, by simpa using Instruction.marked?_eq_some_iff.mp marked⟩
        · simp at last

/-- In a body without repeated labels, a label leads where control flow says. -/
theorem Body.place?_eq_labelPosition? {body : Body}
    (distinct : (Flow.markedLabels body.method.instructions).Nodup) (label : Label) :
    body.place? label = Flow.labelPosition? body.method.instructions label := by
  rw [body.place?_eq]
  cases last : lastMarking? label 0 body.method.instructions with
  | none =>
      have unmarked := lastMarking?_eq_none_iff.mp last
      rw [← Flow.isSome_labelPosition?, Option.not_isSome_iff_eq_none] at unmarked
      exact unmarked.symm
  | some position =>
      obtain ⟨place, rfl, marked⟩ := getElem?_of_lastMarking? last
      rw [Nat.zero_add]
      exact (Flow.labelPosition?_of_distinct distinct marked).symm

end Machine
end MethodTracing
