import MethodTracing.Proofs.Machine.Sequences

/-!
# Nesting of trace lines

Lines nest when every entry line is closed by an exit line of the same method.  Lines that are
still to be completed are described by the methods that they leave open, the innermost first.
-/

namespace MethodTracing
namespace Trace

/-- Every entry line has its exit line, and between the two the lines nest. -/
inductive Nested : List String → Prop
  | nil : Nested []
  | call (name : String) (cost : Int) {inner rest : List String} : Nested inner → Nested rest →
      Nested (entryLine name :: inner ++ exitLine name cost :: rest)

/-- Lines that nest but for the entry lines of the named methods. -/
inductive LeavesOpen : List String → List String → Prop
  | closed {lines : List String} : Nested lines → LeavesOpen [] lines
  | entered (name : String) {names lines inner : List String} : LeavesOpen names lines →
      Nested inner → LeavesOpen (name :: names) (lines ++ entryLine name :: inner)

theorem Nested.append {left right : List String} (left_nested : Nested left)
    (right_nested : Nested right) : Nested (left ++ right) := by
  induction left_nested with
  | nil => exact right_nested
  | call name cost inner_nested _ _ rest_ih =>
      have whole := Nested.call name cost inner_nested rest_ih
      simpa using whole

namespace LeavesOpen

variable {names lines : List String}

theorem nested (leaves_open : LeavesOpen [] lines) : Nested lines := by
  cases leaves_open with
  | closed nested => exact nested

theorem append {more : List String} (leaves_open : LeavesOpen names lines)
    (more_nested : Nested more) : LeavesOpen names (lines ++ more) := by
  cases leaves_open with
  | closed nested => exact .closed (nested.append more_nested)
  | entered name outer inner_nested =>
      rw [List.append_assoc]
      exact .entered name outer (inner_nested.append more_nested)

/-- An entry line opens a method. -/
theorem enter (leaves_open : LeavesOpen names lines) (name : String) :
    LeavesOpen (name :: names) (lines ++ [entryLine name]) :=
  .entered name leaves_open .nil

/-- An exit line closes the method that was opened last. -/
theorem leave {name : String} (leaves_open : LeavesOpen (name :: names) lines) (cost : Int) :
    LeavesOpen names (lines ++ [exitLine name cost]) := by
  cases leaves_open with
  | entered _ outer inner_nested =>
      have whole := outer.append (.call name cost inner_nested .nil)
      simpa using whole

/-- Exit lines for the open methods complete the lines. -/
theorem exists_nested (leaves_open : LeavesOpen names lines) :
    ∃ rest, Nested (lines ++ rest) := by
  induction names generalizing lines with
  | nil => exact ⟨[], by simpa using leaves_open.nested⟩
  | cons name names ih =>
      obtain ⟨rest, nested⟩ := ih (leaves_open.leave 0)
      exact ⟨exitLine name 0 :: rest, by simpa using nested⟩

end LeavesOpen
end Trace
end MethodTracing
