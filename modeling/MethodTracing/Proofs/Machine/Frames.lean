import Mathlib.Tactic.Common
import MethodTracing.Machine.Step
import MethodTracing.Proofs.Machine.Operands
import MethodTracing.Proofs.Verification.Depths

/-!
# Frames within their limits

The operations of a frame keep its depth in step with its operands.  Given enough operands, enough
room and locals in range, they fail for the kind of a value only.
-/

namespace MethodTracing
namespace Machine

/-- The faults that come from the shape of a frame or of a body, not from what an instruction finds
there. -/
def Fault.isStructural : Fault → Bool
  | .stackOverflow _ | .stackUnderflow | .localOutOfRange _ _ | .undefinedLabel _
  | .fellOffEnd => true
  | .typeMismatch _ | .unsupportedMember _ | .thrown => false

/-- A computation answers something with a property, or fails for no structural reason. -/
def Sound {α : Type} (property : α → Prop) : Except Fault α → Prop
  | .ok answer => property answer
  | .error fault => fault.isStructural = false

namespace Sound

variable {α β : Type} {property : α → Prop} {later : β → Prop}

theorem bind {computation : Except Fault α} {next : α → Except Fault β}
    (sound : Sound property computation)
    (rest : ∀ answer, property answer → Sound later (next answer)) :
    Sound later (computation >>= next) := by
  cases computation with
  | ok answer => exact rest answer sound
  | error fault => exact sound

theorem map {computation : Except Fault α} {change : α → β} (sound : Sound property computation)
    (rest : ∀ answer, property answer → later (change answer)) :
    Sound later (computation.map change) := by
  cases computation with
  | ok answer => exact rest answer sound
  | error fault => exact sound

end Sound

/-- A frame whose operands take `depth` slots and whose locals are not set from `used` on. -/
structure Frame.Keeps (limits : FrameLimits) (used depth : Nat) (frame : Frame) : Prop where
  /-- The operands take the depth that is recorded. -/
  balanced : valueWidth frame.stack = frame.depth.toNat
  depth_eq : frame.depth.toNat = depth
  maxStack_eq : frame.maxStack.toNat = limits.maxStack
  size_eq : frame.locals.size = limits.maxLocals
  untouched : ∀ slot, used ≤ slot → frame.locals.getD slot .top = .top

namespace Frame

variable {limits : FrameLimits} {used depth : Nat} {frame : Frame}

theorem keeps_empty (maxStack : UInt16) (maxLocals used : Nat) :
    Keeps ⟨maxStack.toNat, maxLocals⟩ used 0 (empty maxStack maxLocals) := by
  refine ⟨rfl, rfl, rfl, Array.size_replicate, fun slot _ => ?_⟩
  simp only [empty, Array.getD_eq_getD_getElem?, Array.getElem?_replicate]
  split <;> rfl

/-! ## The operand stack -/

theorem push_sound (keeps : Keeps limits used depth frame) (value : Value)
    (room : depth + value.width ≤ limits.maxStack) :
    Sound (Keeps limits used (depth + value.width)) (frame.push value) := by
  obtain ⟨balanced, depth_eq, maxStack_eq, size_eq, untouched⟩ := keeps
  have bound := frame.maxStack.toNat_lt
  -- The limit is one of sixteen bits, so what fits is counted as it is.
  have counts : (frame.depth + .ofNat value.width).toNat = depth + value.width := by
    rw [Value.toNat_add_width (by omega), depth_eq]
  have fits : ¬frame.maxStack < frame.depth + .ofNat value.width := by
    rw [UInt16.not_lt, UInt16.le_iff_toNat_le]
    omega
  rw [push, if_neg fits]
  refine ⟨?_, counts, maxStack_eq, size_eq, untouched⟩
  simp only [valueWidth]
  omega

/-- A value of one slot is pushed where there is room for it. -/
theorem push_narrow_sound (keeps : Keeps limits used depth frame) {value : Value}
    (narrow : value.width = 1) (room : depth + 1 ≤ limits.maxStack) :
    Sound (Keeps limits used (depth + 1)) (frame.push value) := by
  have pushed := push_sound keeps value
  rw [narrow] at pushed
  exact pushed room

theorem pop_ok (keeps : Keeps limits used depth frame) (enough : 0 < depth) :
    ∃ value rest, frame.pop = .ok (value, rest) ∧ value.width ≤ depth ∧
      Keeps limits used (depth - value.width) rest := by
  obtain ⟨balanced, depth_eq, maxStack_eq, size_eq, untouched⟩ := keeps
  unfold pop
  cases stack_eq : frame.stack with
  | nil =>
      simp only [valueWidth, stack_eq] at balanced
      omega
  | cons value rest =>
      simp only [valueWidth, stack_eq] at balanced
      have counts : (frame.depth - .ofNat value.width).toNat = depth - value.width := by
        rw [Value.toNat_sub_width (by omega), depth_eq]
      refine ⟨value, _, rfl, by omega, ?_, counts, maxStack_eq, size_eq, untouched⟩
      simp only
      omega

theorem popInt_sound (keeps : Keeps limits used depth frame) (enough : 0 < depth) :
    Sound (fun answer => Keeps limits used (depth - 1) answer.2) frame.popInt := by
  obtain ⟨value, rest, popped, -, kept⟩ := pop_ok keeps enough
  rw [popInt, popped]
  cases value with
  | int value => exact kept
  | _ => rfl

theorem popLong_sound (keeps : Keeps limits used depth frame) (enough : 0 < depth) :
    Sound (fun answer => 2 ≤ depth ∧ Keeps limits used (depth - 2) answer.2) frame.popLong := by
  obtain ⟨value, rest, popped, width_le, kept⟩ := pop_ok keeps enough
  rw [popLong, popped]
  cases value with
  | long value => exact ⟨width_le, kept⟩
  | _ => rfl

theorem popReference_sound (keeps : Keeps limits used depth frame) (enough : 0 < depth) :
    Sound (fun answer => Keeps limits used (depth - 1) answer.2) frame.popReference := by
  obtain ⟨value, rest, popped, -, kept⟩ := pop_ok keeps enough
  rw [popReference, popped]
  cases value with
  | reference object => exact kept
  | _ => rfl

theorem popNarrow_sound (keeps : Keeps limits used depth frame) (enough : 0 < depth) :
    Sound (fun answer => answer.1.width = 1 ∧ Keeps limits used (depth - 1) answer.2)
      frame.popNarrow := by
  obtain ⟨value, rest, popped, -, kept⟩ := pop_ok keeps enough
  rw [popNarrow, popped]
  by_cases narrow : value.width = 1
  · simp only [if_pos narrow]
    exact ⟨narrow, narrow ▸ kept⟩
  · simp only [if_neg narrow]
    rfl

theorem popKind_sound (keeps : Keeps limits used depth frame) (enough : 0 < depth)
    (kind : ValueKind) :
    Sound (fun answer => answer.1.width = kind.width ∧ kind.width ≤ depth ∧
      Keeps limits used (depth - kind.width) answer.2) (frame.popKind kind) := by
  cases kind with
  | int =>
      exact (popInt_sound keeps enough).map fun answer kept => ⟨rfl, enough, kept⟩
  | long =>
      exact (popLong_sound keeps enough).map fun answer kept => ⟨rfl, kept⟩
  | reference =>
      exact (popReference_sound keeps enough).map fun answer kept => ⟨rfl, enough, kept⟩

/-! ## Locals -/

theorem load_sound (keeps : Keeps limits used depth frame) (slot : Nat) (kind : ValueKind)
    (inside : slot + kind.width ≤ limits.maxLocals) :
    Sound (fun value => value.width = kind.width) (frame.load slot kind) := by
  have holds : frame.holds slot kind.width = true := by
    simp [holds, keeps.size_eq, inside]
  unfold load
  rw [if_pos holds]
  cases kind <;> cases frame.locals.getD slot .top <;> rfl

theorem store_sound (keeps : Keeps limits used depth frame) (slot : Nat) (value : Value)
    (inside : slot + value.width ≤ limits.maxLocals) (within : slot + value.width ≤ used) :
    Sound (Keeps limits used depth) (frame.store slot value) := by
  have holds : frame.holds slot value.width = true := by
    simp [holds, keeps.size_eq, inside]
  obtain ⟨balanced, depth_eq, maxStack_eq, size_eq, untouched⟩ := keeps
  rw [store, if_pos holds]
  refine ⟨balanced, depth_eq, maxStack_eq, ?_, fun other beyond => ?_⟩
  · simp only
    split <;> simp [size_eq]
  · have width_pos := value.width_pos
    have kept := untouched other beyond
    simp only [Array.getD_eq_getD_getElem?] at kept ⊢
    split
    · rename_i wide
      rw [Array.getElem?_setIfInBounds_ne (by omega), Array.getElem?_setIfInBounds_ne (by omega)]
      exact kept
    · rw [Array.getElem?_setIfInBounds_ne (by omega)]
      exact kept

/-- Arguments are laid out if there is room for all of them. -/
theorem layOut_sound (keeps : Keeps limits used depth frame) (slot : Nat) (arguments : List Value)
    (inside : slot + valueWidth arguments ≤ limits.maxLocals)
    (within : slot + valueWidth arguments ≤ used) :
    Sound (Keeps limits used depth) (frame.layOut slot arguments) := by
  induction arguments generalizing frame slot with
  | nil => exact keeps
  | cons argument rest ih =>
      simp only [valueWidth] at inside within ih
      have stored := store_sound keeps slot argument (by omega) (by omega)
      simp only [layOut]
      cases found : frame.store slot argument with
      | error fault =>
          rw [found] at stored
          exact stored
      | ok frame =>
          rw [found] at stored
          exact ih stored _ (by omega) (by omega)

/-! ## Arguments of calls -/

theorem popArgument_sound (keeps : Keeps limits used depth frame) (enough : 0 < depth)
    (type : FieldType) :
    Sound (fun answer => answer.1.width = type.width ∧ type.width ≤ depth ∧
      Keeps limits used (depth - type.width) answer.2) (frame.popArgument type) := by
  cases type with
  | boolean | byte | char | short | int => exact popKind_sound keeps enough .int
  | long => exact popKind_sound keeps enough .long
  | object | array => exact popKind_sound keeps enough .reference
  | float | double => rfl

theorem popReversed_sound (keeps : Keeps limits used depth frame) (arguments : List Value)
    (types : List FieldType) (enough : MethodType.totalWidth types ≤ depth) :
    Sound (fun answer => answer.1.map Value.width =
        (types.reverse.map FieldType.width) ++ arguments.map Value.width ∧
      Keeps limits used (depth - MethodType.totalWidth types) answer.2)
      (frame.popReversed arguments types) := by
  induction types generalizing frame depth arguments with
  | nil => exact ⟨rfl, keeps⟩
  | cons type rest ih =>
      have width_pos := type.width_pos
      simp only [MethodType.totalWidth] at enough
      have popped := popArgument_sound keeps (by omega) type
      simp only [popReversed]
      cases found : frame.popArgument type with
      | error fault =>
          rw [found] at popped
          exact popped
      | ok answer =>
          rw [found] at popped
          obtain ⟨width_eq, -, kept⟩ := popped
          have later := ih kept (answer.1 :: arguments) (by omega)
          rw [MethodType.totalWidth, ← Nat.sub_sub]
          simpa [width_eq] using later

/-- Values with the widths of some types take the slots of the types. -/
theorem valueWidth_eq_totalWidth {values : List Value} {types : List FieldType}
    (same : values.map Value.width = types.map FieldType.width) :
    valueWidth values = MethodType.totalWidth types := by
  induction types generalizing values with
  | nil =>
      rw [List.map_nil, List.map_eq_nil_iff] at same
      rw [same]
      rfl
  | cons type rest ih =>
      cases values with
      | nil => simp at same
      | cons value values =>
          rw [List.map_cons, List.map_cons, List.cons.injEq] at same
          rw [valueWidth, MethodType.totalWidth, same.1, ih same.2]

theorem totalWidth_append (left right : List FieldType) :
    MethodType.totalWidth (left ++ right) =
      MethodType.totalWidth left + MethodType.totalWidth right := by
  induction left with
  | nil => simp [MethodType.totalWidth]
  | cons type rest ih => rw [List.cons_append, MethodType.totalWidth, MethodType.totalWidth, ih,
      Nat.add_assoc]

theorem totalWidth_reverse (types : List FieldType) :
    MethodType.totalWidth types.reverse = MethodType.totalWidth types := by
  induction types with
  | nil => rfl
  | cons type rest ih =>
      rw [List.reverse_cons, totalWidth_append, ih, Nat.add_comm]
      rfl

theorem totalWidth_replicate (count : Nat) (type : FieldType) :
    MethodType.totalWidth (.replicate count type) = count * type.width := by
  induction count with
  | zero => simp [MethodType.totalWidth]
  | succ count ih => rw [List.replicate_succ, MethodType.totalWidth, ih, Nat.succ_mul, Nat.add_comm]

/-- The arguments of a call have the widths of its parameters. -/
theorem popArguments_sound (keeps : Keeps limits used depth frame) {type : MethodType}
    (enough : type.parameterWidth ≤ depth) :
    Sound (fun answer => answer.1.map Value.width = type.parameters.map FieldType.width ∧
      Keeps limits used (depth - type.parameterWidth) answer.2)
      (frame.popArguments type.parameters) := by
  have popped := popReversed_sound keeps [] type.parameters.reverse
    (by rwa [totalWidth_reverse])
  simpa [totalWidth_reverse, popArguments, MethodType.parameterWidth] using popped

end Frame

end Machine
end MethodTracing
