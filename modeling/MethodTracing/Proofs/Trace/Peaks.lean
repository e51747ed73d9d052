import Mathlib.Data.List.Induction
import Mathlib.Data.Nat.Cast.Order.Basic
import Mathlib.Order.Bounds.Image
import MethodTracing.Proofs.Verification.Depths
import MethodTracing.Trace.Template

/-!
# Peaks of sequences

A sequence counts the depth of the operand stack from its start on; what it takes from below the
start is not counted.  So it counts as if the stack were empty before, and a fuller stack can only
rise less.

Main statement: while instructions are executed, the stack rises by no more than the sequence of
them has counted, and so by no more than its peak.  Both are exact if nothing is taken from below
the start, and only then is every count exact.
-/

namespace MethodTracing
namespace Sequence

open Verification

/-! ## Levels of the stack -/

/-- The depth of the operand stack once instructions are executed in order, each taking off and
putting on all that its effect says. -/
def level (depth : Int) : List Instruction → Int
  | [] => depth
  | instruction :: rest =>
      level (depth - instruction.effect.pops + instruction.effect.pushes) rest

/-- No instruction, executed in order, takes the operand stack below the floor. -/
def StaysAbove (floor depth : Int) : List Instruction → Prop
  | [] => True
  | instruction :: rest =>
      floor ≤ depth - instruction.effect.pops ∧
        StaysAbove floor (depth - instruction.effect.pops + instruction.effect.pushes) rest

instance decidableStaysAbove (floor depth : Int) :
    (code : List Instruction) → Decidable (StaysAbove floor depth code)
  | [] => inferInstanceAs (Decidable True)
  | instruction :: rest =>
      have := decidableStaysAbove floor
        (depth - instruction.effect.pops + instruction.effect.pushes) rest
      inferInstanceAs (Decidable (_ ∧ _))

/-- A stack that begins higher ends higher by as much. -/
theorem level_add (gap depth : Int) (code : List Instruction) :
    level (gap + depth) code = gap + level depth code := by
  induction code generalizing depth with
  | nil => rfl
  | cons first rest ih =>
      simp only [level]
      rw [← ih]
      congr 1
      omega

theorem staysAbove_add (gap floor depth : Int) (code : List Instruction) :
    StaysAbove (gap + floor) (gap + depth) code ↔ StaysAbove floor depth code := by
  induction code generalizing depth with
  | nil => rfl
  | cons first rest ih =>
      simp only [StaysAbove]
      rw [← ih, show gap + depth - first.effect.pops + first.effect.pushes =
        gap + (depth - first.effect.pops + first.effect.pushes) by omega]
      apply and_congr_left'
      omega

/-! ## Counted depths -/

/-- An instruction is counted right exactly if what it takes is there. -/
theorem cast_after_eq_iff {depth : Nat} {instruction : Instruction} :
    depth - instruction.effect.pops + instruction.effect.pushes =
        (after depth instruction : Int) ↔ 0 ≤ (depth - instruction.effect.pops : Int) := by
  simp only [after]
  omega

/-- All counts along instructions are right exactly if none takes more than is there. -/
theorem level_eq_final_iff (depth : Nat) (code : List Instruction) :
    (∀ count, level depth (code.take count) = final depth (code.take count)) ↔
      StaysAbove 0 depth code := by
  induction code generalizing depth with
  | nil => simp [level, StaysAbove]
  | cons first rest ih =>
      constructor
      · intro counted
        -- The instruction by itself, then those after it at the depth that it leaves.
        have first_counted : depth - first.effect.pops + first.effect.pushes =
            (after depth first : Int) := counted 1
        refine ⟨cast_after_eq_iff.mp first_counted, ?_⟩
        rw [first_counted, ← ih]
        intro count
        rw [← first_counted]
        exact counted (count + 1)
      · rintro ⟨held, above⟩ count
        rw [cast_after_eq_iff.mpr held, ← ih] at above
        cases count with
        | zero => rfl
        | succ count =>
            have counted := above count
            rw [← cast_after_eq_iff.mpr held] at counted
            exact counted

theorem after_le_add {gap low high : Nat} (close : high ≤ gap + low) (instruction : Instruction) :
    after high instruction ≤ gap + after low instruction := by
  simp only [after]
  omega

/-- Of two stacks the higher one stays higher by no more than the gap at the start.  Where the lower
one runs empty, the gap narrows. -/
theorem final_le_add {gap low high : Nat} (close : high ≤ gap + low) (code : List Instruction) :
    final high code ≤ gap + final low code := by
  induction code generalizing low high with
  | nil => exact close
  | cons first rest ih => exact ih (after_le_add close first)

/-! ## Counts and peaks of sequences -/

theorem depth_foldl_emit (sequence : Sequence) (code : List Instruction) :
    (code.foldl emit sequence).depth = final sequence.depth code := by
  induction code generalizing sequence with
  | nil => rfl
  | cons first rest ih => exact ih (sequence.emit first)

/-- A sequence counts as if the stack were empty before. -/
theorem depth_ofList (code : List Instruction) : (ofList code).depth = final 0 code :=
  depth_foldl_emit empty code

theorem ofList_concat (front : List Instruction) (last : Instruction) :
    ofList (front ++ [last]) = (ofList front).emit last := by
  simp [ofList]

theorem depth_le_peak {front code : List Instruction} (within : front <+: code) :
    (ofList front).depth ≤ (ofList code).peak := by
  induction code using List.reverseRecOn with
  | nil =>
      rw [List.prefix_nil.mp within]
      rfl
  | append_singleton rest last ih =>
      rw [ofList_concat]
      obtain rfl | shorter := List.prefix_concat_iff.mp within
      · rw [ofList_concat]
        exact Nat.le_max_right _ _
      · exact (ih shorter).trans (Nat.le_max_left _ _)

theorem exists_depth_eq_peak (code : List Instruction) :
    ∃ front, front <+: code ∧ (ofList front).depth = (ofList code).peak := by
  induction code using List.reverseRecOn with
  | nil => exact ⟨[], List.prefix_rfl, rfl⟩
  | append_singleton rest last ih =>
      rw [ofList_concat]
      obtain ⟨front, within, reached⟩ := ih
      obtain above | below := Nat.le_total (ofList rest).peak ((ofList rest).emit last).depth
      · refine ⟨rest ++ [last], List.prefix_rfl, ?_⟩
        rw [ofList_concat]
        exact (Nat.max_eq_right above).symm
      · refine ⟨front, within.trans (List.prefix_append rest [last]), ?_⟩
        rw [reached]
        exact (Nat.max_eq_left below).symm

/-- The peak is the highest count after any of the instructions, or the start. -/
theorem isGreatest_peak (code : List Instruction) :
    IsGreatest (Set.range fun count => (ofList (code.take count)).depth) (ofList code).peak := by
  constructor
  · obtain ⟨front, within, reached⟩ := exists_depth_eq_peak code
    refine ⟨front.length, ?_⟩
    simp only
    rw [← List.prefix_iff_eq_take.mp within, reached]
  · rintro _ ⟨count, rfl⟩
    exact depth_le_peak (List.take_prefix count code)

/-- The counts of a sequence are the levels above the start exactly if nothing is taken from below
it: such instructions would do with an empty stack. -/
theorem level_eq_depth_iff (depth : Int) (code : List Instruction) :
    (∀ count, level depth (code.take count) = depth + (ofList (code.take count)).depth) ↔
      StaysAbove depth depth code := by
  have level_eq (count : Nat) :
      level depth (code.take count) = depth + level 0 (code.take count) := by
    rw [← level_add, Int.add_zero]
  have above_iff : StaysAbove depth depth code ↔ StaysAbove 0 0 code := by
    rw [← staysAbove_add depth 0 0, Int.add_zero]
  rw [above_iff]
  simp only [level_eq, Int.add_right_inj, depth_ofList]
  exact level_eq_final_iff 0 code

/-- Whatever instructions are emitted, and whatever the stack holds at the start, as long as it holds
all that is taken: after any of them it has risen by the count of the sequence at most, and by its
peak at most.  All counts are exact if and only if nothing is taken from below the start, and then
the peak is the most by which the stack rises. -/
theorem ofList_bounds_level (code : List Instruction) (depth : Nat)
    (enough : StaysAbove 0 depth code) :
    (∀ count,
      level depth (code.take count) ≤ depth + (ofList (code.take count)).depth ∧
        level depth (code.take count) ≤ depth + (ofList code).peak) ∧
    ((∀ count, level depth (code.take count) = depth + (ofList (code.take count)).depth) ↔
      StaysAbove depth depth code) ∧
    (StaysAbove depth depth code →
      IsGreatest (Set.range fun count => level depth (code.take count))
        (depth + (ofList code).peak)) := by
  have by_count (count : Nat) :
      level depth (code.take count) ≤ depth + (ofList (code.take count)).depth := by
    have counted : final depth (code.take count) ≤ depth + final 0 (code.take count) :=
      final_le_add (Nat.le_refl depth) (code.take count)
    rw [(level_eq_final_iff depth code).mpr enough, depth_ofList]
    exact_mod_cast counted
  have by_peak (count : Nat) : ((ofList (code.take count)).depth : Int) ≤ (ofList code).peak :=
    Int.ofNat_le.mpr (depth_le_peak (List.take_prefix count code))
  refine ⟨fun count => ⟨by_count count, ?_⟩, level_eq_depth_iff depth code, fun above => ?_⟩
  · calc level depth (code.take count)
        ≤ depth + (ofList (code.take count)).depth := by_count count
      _ ≤ depth + (ofList code).peak := Int.add_le_add_left (by_peak count) depth
  · have raised : Monotone fun risen : Nat => (depth + risen : Int) :=
      fun _ _ le => Int.add_le_add_left (Int.ofNat_le.mpr le) depth
    have greatest := raised.map_isGreatest (isGreatest_peak code)
    rw [← Set.range_comp] at greatest
    rw [funext ((level_eq_depth_iff depth code).mpr above)]
    exact greatest

/-- Instructions that exchange what lies below their start and then take one slot of it. -/
def borrowing : List Instruction := [.swap, .lconst 7, .pop2, .pop]

theorem ofList_bounds_level_borrowing :
    StaysAbove 0 2 borrowing ∧ ¬StaysAbove 2 2 borrowing ∧
      (∀ count,
        level 2 (borrowing.take count) ≤ 2 + (ofList (borrowing.take count)).depth ∧
          level 2 (borrowing.take count) ≤ 2 + 4) ∧
      StaysAbove 2 2 (Trace.exitCode "compute" 3 5) ∧
      IsGreatest (Set.range fun count => level 2 ((Trace.exitCode "compute" 3 5).take count))
        (2 + 4) :=
  have enough : StaysAbove 0 2 borrowing := by decide
  have exit_enough : StaysAbove 0 2 (Trace.exitCode "compute" 3 5) := by decide
  have exit_above : StaysAbove 2 2 (Trace.exitCode "compute" 3 5) := by decide
  ⟨enough, by decide, (ofList_bounds_level borrowing 2 enough).1, exit_above,
    (ofList_bounds_level (Trace.exitCode "compute" 3 5) 2 exit_enough).2.2 exit_above⟩

end Sequence
end MethodTracing
