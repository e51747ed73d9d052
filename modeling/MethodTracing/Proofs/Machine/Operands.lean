import Mathlib.Tactic.Common
import MethodTracing.Machine.Frame

/-!
# Counted operands

The slots that operands take, and their count in sixteen bits.  The count keeps to the limit at all
times, but it is the number of slots only up to a multiple of 65536.  Main statement: it is exact
where the limit leaves room for a value of two slots in sixteen bits.
-/

namespace MethodTracing
namespace Machine

/-- Slots taken by values, one after another. -/
def valueWidth : List Value → Nat
  | [] => 0
  | value :: rest => value.width + valueWidth rest

theorem Value.width_pos (value : Value) : 0 < value.width := by
  cases value <;> simp [width]

theorem Value.width_le_two (value : Value) : value.width ≤ 2 := by
  cases value <;> simp [width]

theorem Value.toNat_ofNat_width (value : Value) :
    (UInt16.ofNat value.width).toNat = value.width := by
  cases value <;> rfl

/-- A value is counted as it is where sixteen bits have room for it. -/
theorem Value.toNat_add_width {depth : UInt16} {value : Value}
    (fits : depth.toNat + value.width < 65536) :
    (depth + .ofNat value.width).toNat = depth.toNat + value.width := by
  rw [UInt16.toNat_add, value.toNat_ofNat_width, Nat.mod_eq_of_lt fits]

theorem Value.toNat_sub_width {depth : UInt16} {value : Value}
    (enough : value.width ≤ depth.toNat) :
    (depth - .ofNat value.width).toNat = depth.toNat - value.width := by
  have le : UInt16.ofNat value.width ≤ depth := by
    rwa [UInt16.le_iff_toNat_le, value.toNat_ofNat_width]
  rw [UInt16.toNat_sub_of_le _ _ le, value.toNat_ofNat_width]

/-- The highest limit under which no count of operands wraps around. -/
def exactLimit : Nat := 65533

namespace Frame

/-- The count of a frame is that of its operands as far as sixteen bits hold it.  It kept to the
limit when each operand was pushed, and so it does with the operands above any of them gone. -/
structure Counted (frame : Frame) : Prop where
  depth_eq : frame.depth = .ofNat (valueWidth frame.stack)
  within : ∀ rest, rest <:+ frame.stack → UInt16.ofNat (valueWidth rest) ≤ frame.maxStack

variable {frame : Frame} {value : Value} {rest : List Value}

theorem counted_empty (maxStack : UInt16) (maxLocals : Nat) :
    (empty maxStack maxLocals).Counted := by
  refine ⟨rfl, fun rest lower => ?_⟩
  obtain rfl := List.suffix_nil.mp lower
  exact UInt16.zero_le

/-- No count of sixteen bits is past the highest limit, so every push succeeds. -/
theorem push_of_highest (stack : List Value) (depth : UInt16) (locals : Array Value)
    (value : Value) :
    push ⟨stack, depth, 65535, locals⟩ value =
      .ok ⟨value :: stack, depth + .ofNat value.width, 65535, locals⟩ :=
  if_neg (UInt16.not_lt.mpr (UInt16.le_iff_toNat_le.mpr (Nat.le_of_lt_succ (UInt16.toNat_lt _))))

namespace Counted

theorem depth_le (counted : frame.Counted) : frame.depth ≤ frame.maxStack := by
  rw [counted.depth_eq]
  exact counted.within _ List.suffix_rfl

theorem push (counted : frame.Counted)
    (fits : frame.depth + .ofNat value.width ≤ frame.maxStack) :
    Counted { frame with
      stack := value :: frame.stack, depth := frame.depth + .ofNat value.width } := by
  have depth_eq : frame.depth + .ofNat value.width =
      .ofNat (valueWidth (value :: frame.stack)) := by
    rw [valueWidth, UInt16.ofNat_add, counted.depth_eq, UInt16.add_comm]
  refine ⟨depth_eq, fun rest lower => ?_⟩
  rcases List.suffix_cons_iff.mp lower with rfl | lower
  · exact depth_eq ▸ fits
  · exact counted.within rest lower

theorem pop (counted : frame.Counted) (stack_eq : frame.stack = value :: rest) :
    Counted { frame with stack := rest, depth := frame.depth - .ofNat value.width } := by
  refine ⟨?_, fun lowest lower => counted.within lowest ?_⟩
  · simp only [counted.depth_eq, stack_eq, valueWidth]
    rw [Nat.add_comm, UInt16.ofNat_add, UInt16.add_sub_cancel]
  · rw [stack_eq]
    exact lower.trans (List.suffix_cons value rest)

/-- Under a limit of at most 65533 slots the count is the number of slots. -/
theorem exact (counted : frame.Counted) (low : frame.maxStack.toNat ≤ exactLimit) :
    frame.depth.toNat = valueWidth frame.stack := by
  -- From the bottom up: with one value more there are at most 65535 slots, so their count is exact
  -- and, as it is within the limit, so are they.
  have fits : ∀ rest, rest <:+ frame.stack → valueWidth rest ≤ frame.maxStack.toNat := by
    intro rest
    induction rest with
    | nil => exact fun _ => Nat.zero_le _
    | cons value rest ih =>
        intro lower
        have below := ih ((List.suffix_cons value rest).trans lower)
        have narrow := value.width_le_two
        have counts := counted.within _ lower
        simp only [exactLimit] at low
        rw [UInt16.le_iff_toNat_le, UInt16.toNat_ofNat', valueWidth,
          Nat.mod_eq_of_lt (by omega)] at counts
        exact counts
  have here := fits _ List.suffix_rfl
  have bound := frame.maxStack.toNat_lt
  rw [counted.depth_eq, UInt16.toNat_ofNat', Nat.mod_eq_of_lt (by omega)]

end Counted
end Frame
end Machine
end MethodTracing
