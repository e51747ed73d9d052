import Mathlib.Data.List.Forall2
import MethodTracing.Proofs.Machine.Images
import MethodTracing.Proofs.Machine.Operands

/-!
# Frames that agree but for their limits

Two frames hold the same operands and locals, up to the places of objects, and the one may have more
room than the other.  What an operation does to the smaller frame, it does to the larger one, unless
the smaller one has no room for it and the larger one has more.
-/

namespace MethodTracing
namespace Machine

/-- The faults of a frame that has no room. -/
def Fault.isLimit : Fault → Bool
  | .stackOverflow _ | .localOutOfRange _ _ => true
  | _ => false

/-- A computation is mirrored by another one that answers something related or fails alike, unless
its own failure is excused. -/
inductive Mirrors {ε α β : Type} (excused : ε → Prop) (related : α → β → Prop) :
    Except ε α → Except ε β → Prop
  | ok {answer image : _} : related answer image → Mirrors excused related (.ok answer) (.ok image)
  | error (cause : ε) : Mirrors excused related (.error cause) (.error cause)
  | excuse {cause : ε} {outcome : Except ε β} : excused cause →
      Mirrors excused related (.error cause) outcome

namespace Mirrors

variable {ε α β α' β' : Type} {excused : ε → Prop} {related : α → β → Prop}
  {related' : α' → β' → Prop} {computation : Except ε α} {image : Except ε β}

theorem bind (mirrors : Mirrors excused related computation image) {next : α → Except ε α'}
    {next' : β → Except ε β'}
    (rest : ∀ answer answer', related answer answer' →
      Mirrors excused related' (next answer) (next' answer')) :
    Mirrors excused related' (computation >>= next) (image >>= next') := by
  cases mirrors with
  | ok answers => exact rest _ _ answers
  | error cause => exact .error cause
  | excuse spared => exact .excuse spared

theorem map (mirrors : Mirrors excused related computation image) {change : α → α'}
    {change' : β → β'}
    (rest : ∀ answer answer', related answer answer' → related' (change answer) (change' answer')) :
    Mirrors excused related' (computation.map change) (image.map change') := by
  cases mirrors with
  | ok answers => exact .ok (rest _ _ answers)
  | error cause => exact .error cause
  | excuse spared => exact .excuse spared

theorem outcomes (mirrors : Mirrors excused related computation image) :
    (∃ answer answer', computation = .ok answer ∧ image = .ok answer' ∧ related answer answer') ∨
      ∃ cause, computation = .error cause ∧ (image = .error cause ∨ excused cause) := by
  cases mirrors with
  | ok answers => exact Or.inl ⟨_, _, rfl, rfl, answers⟩
  | error cause => exact Or.inr ⟨cause, rfl, Or.inl rfl⟩
  | excuse spared => exact Or.inr ⟨_, rfl, Or.inr spared⟩

/-- Where nothing is excused, both answer or both fail. -/
theorem outcomes_of_strict (mirrors : Mirrors excused related computation image)
    (strict : ∀ cause, ¬excused cause) :
    (∃ answer answer', computation = .ok answer ∧ image = .ok answer' ∧ related answer answer') ∨
      ∃ cause, computation = .error cause ∧ image = .error cause := by
  rcases mirrors with answers | cause | spared
  · exact Or.inl ⟨_, _, rfl, rfl, answers⟩
  · exact Or.inr ⟨cause, rfl, rfl⟩
  · exact absurd spared (strict _)

end Mirrors

/-- Values that are no references stand for themselves. -/
theorem Value.forall₂_matches (images : List ObjectId) {values : List Value}
    (no_reference : ∀ object, Value.reference object ∉ values) :
    List.Forall₂ (Value.Matches images) values values := by
  apply List.forall₂_same.mpr
  intro value member
  cases value with
  | int value => exact .int value
  | long value => exact .long value
  | reference object => exact absurd member (no_reference object)
  | top => exact .top

/-- What a frame has beyond a smaller one. -/
structure Margin where
  /-- The locals of the smaller frame. -/
  slots : Nat
  /-- Further locals, and as many further operands. -/
  extra : Nat
  /-- The time kept in the first further local. -/
  began : Option Int64

/-- The smaller frame lacks room that the larger one may have. -/
def Margin.Spares (margin : Margin) (fault : Fault) : Prop :=
  fault.isLimit = true ∧ 0 < margin.extra

/-- Room for an operation is not promised where a frame has more of it than the other. -/
abbrev Follows {α β : Type} (margin : Margin) (related : α → β → Prop) :
    Except Fault α → Except Fault β → Prop :=
  Mirrors margin.Spares related

/-- A frame agrees with a larger one in all that it holds itself. -/
structure Frame.Matches (images : List ObjectId) (margin : Margin) (frame image : Frame) :
    Prop where
  stack : List.Forall₂ (Value.Matches images) frame.stack image.stack
  depth : image.depth = frame.depth
  counted : frame.Counted
  room : image.maxStack.toNat = frame.maxStack.toNat + margin.extra
  slots : frame.locals.size = margin.slots
  size : image.locals.size = margin.slots + margin.extra
  locals : ∀ slot < margin.slots,
    (frame.locals.getD slot .top).Matches images (image.locals.getD slot .top)
  began : ∀ time, margin.began = some time → image.locals.getD margin.slots .top = .long time

/-- A value on top of a frame, related to another such pair. -/
def Pops (images : List ObjectId) (margin : Margin) (popped image : Value × Frame) : Prop :=
  popped.1.Matches images image.1 ∧ popped.2.Matches images margin image.2

namespace Frame

variable {images : List ObjectId} {margin : Margin} {frame image : Frame}

theorem Matches.mono {more : List ObjectId} (grows : images <+: more)
    (matched : frame.Matches images margin image) : frame.Matches more margin image :=
  { matched with
    stack := matched.stack.imp fun _ _ values => values.mono grows
    locals := fun slot inside => (matched.locals slot inside).mono grows }

theorem matches_empty (images : List ObjectId) {maxStack larger : UInt16} (maxLocals : Nat)
    {extra : Nat} (room : larger.toNat = maxStack.toNat + extra) :
    (empty maxStack maxLocals).Matches images ⟨maxLocals, extra, none⟩
      (empty larger (maxLocals + extra)) := by
  refine ⟨.nil, rfl, counted_empty _ _, room, Array.size_replicate, Array.size_replicate,
    fun slot inside => ?_, by simp⟩
  have unset : ∀ size, (Array.replicate size Value.top).getD slot .top = .top := by
    intro size
    simp only [Array.getD_eq_getD_getElem?, Array.getElem?_replicate]
    split <;> rfl
  simp only [empty, unset]
  exact .top

/-! ## The operand stack -/

theorem push_follows (matched : frame.Matches images margin image) {value value' : Value}
    (values : value.Matches images value') :
    Follows margin (Matches images margin) (frame.push value) (image.push value') := by
  have room := matched.room
  by_cases overflows : frame.maxStack < frame.depth + .ofNat value.width
  · rw [push, if_pos overflows]
    rcases Nat.eq_zero_or_pos margin.extra with same_room | more_room
    · rw [same_room, Nat.add_zero, UInt16.toNat_inj] at room
      rw [push, room, matched.depth, values.width_eq, if_pos overflows]
      exact .error _
    · exact .excuse ⟨rfl, more_room⟩
  · have fits := UInt16.not_lt.mp overflows
    have fits' : image.depth + .ofNat value'.width ≤ image.maxStack := by
      rw [matched.depth, values.width_eq, UInt16.le_iff_toNat_le, room]
      exact Nat.le_add_right_of_le (UInt16.le_iff_toNat_le.mp fits)
    rw [push, if_neg overflows, push, if_neg (UInt16.not_lt.mpr fits')]
    refine .ok { matched with
      stack := .cons values matched.stack, depth := ?_, counted := matched.counted.push fits }
    simp only [matched.depth, values.width_eq]

/-- Both frames have an operand, or neither has. -/
theorem pop_cases (matched : frame.Matches images margin image) :
    (∃ value rest value' rest', frame.pop = .ok (value, rest) ∧ image.pop = .ok (value', rest') ∧
      value.Matches images value' ∧ rest.Matches images margin rest') ∨
    frame.pop = .error .stackUnderflow ∧ image.pop = .error .stackUnderflow := by
  have operands := matched.stack
  unfold pop
  cases stack_eq : frame.stack with
  | nil =>
      rw [stack_eq, List.forall₂_nil_left_iff] at operands
      rw [operands]
      exact Or.inr ⟨rfl, rfl⟩
  | cons value rest =>
      rw [stack_eq, List.forall₂_cons_left_iff] at operands
      obtain ⟨value', rest', values, rests, stack_eq'⟩ := operands
      rw [stack_eq']
      refine Or.inl ⟨_, _, _, _, rfl, rfl, values,
        { matched with
          stack := rests, depth := ?_, counted := matched.counted.pop stack_eq }⟩
      simp only [matched.depth, values.width_eq]

theorem pop_follows (matched : frame.Matches images margin image) :
    Follows margin (Pops images margin) frame.pop image.pop := by
  rcases pop_cases matched with ⟨_, _, _, _, popped, popped', values, rests⟩ | ⟨popped, popped'⟩
  · rw [popped, popped']
    exact .ok ⟨values, rests⟩
  · rw [popped, popped']
    exact .error _

theorem popInt_follows (matched : frame.Matches images margin image) :
    Follows margin
      (fun popped popped' => popped.1 = popped'.1 ∧ popped.2.Matches images margin popped'.2)
      frame.popInt image.popInt := by
  rcases pop_cases matched with ⟨_, _, _, _, popped, popped', values, rests⟩ | ⟨popped, popped'⟩
  · rw [popInt, popInt, popped, popped']
    rcases values with value | _ | _ | _
    · exact .ok ⟨rfl, rests⟩
    all_goals exact .error _
  · rw [popInt, popInt, popped, popped']
    exact .error _

theorem popLong_follows (matched : frame.Matches images margin image) :
    Follows margin
      (fun popped popped' => popped.1 = popped'.1 ∧ popped.2.Matches images margin popped'.2)
      frame.popLong image.popLong := by
  rcases pop_cases matched with ⟨_, _, _, _, popped, popped', values, rests⟩ | ⟨popped, popped'⟩
  · rw [popLong, popLong, popped, popped']
    rcases values with _ | value | _ | _
    · exact .error _
    · exact .ok ⟨rfl, rests⟩
    all_goals exact .error _
  · rw [popLong, popLong, popped, popped']
    exact .error _

theorem popReference_follows (matched : frame.Matches images margin image) :
    Follows margin (fun popped popped' => images[popped.1.index]? = some popped'.1 ∧
      popped.2.Matches images margin popped'.2) frame.popReference image.popReference := by
  rcases pop_cases matched with ⟨_, _, _, _, popped, popped', values, rests⟩ | ⟨popped, popped'⟩
  · rw [popReference, popReference, popped, popped']
    rcases values with _ | _ | found | _
    · exact .error _
    · exact .error _
    · exact .ok ⟨found, rests⟩
    · exact .error _
  · rw [popReference, popReference, popped, popped']
    exact .error _

theorem popNarrow_follows (matched : frame.Matches images margin image) :
    Follows margin (Pops images margin) frame.popNarrow image.popNarrow := by
  rcases pop_cases matched with ⟨_, _, _, _, popped, popped', values, rests⟩ | ⟨popped, popped'⟩
  · rw [popNarrow, popNarrow, popped, popped']
    simp only [values.width_eq]
    split
    · exact .ok ⟨values, rests⟩
    · exact .error _
  · rw [popNarrow, popNarrow, popped, popped']
    exact .error _

theorem popKind_follows (matched : frame.Matches images margin image) (kind : ValueKind) :
    Follows margin (Pops images margin) (frame.popKind kind) (image.popKind kind) := by
  cases kind with
  | int =>
      apply (popInt_follows matched).map
      rintro ⟨value, rest⟩ ⟨value', rest'⟩ ⟨same, rests⟩
      obtain rfl : value = value' := same
      exact ⟨.int value, rests⟩
  | long =>
      apply (popLong_follows matched).map
      rintro ⟨value, rest⟩ ⟨value', rest'⟩ ⟨same, rests⟩
      obtain rfl : value = value' := same
      exact ⟨.long value, rests⟩
  | reference =>
      exact (popReference_follows matched).map fun _ _ agree => ⟨.reference agree.1, agree.2⟩

/-! ## Arguments -/

theorem popArgument_follows (matched : frame.Matches images margin image) (type : FieldType) :
    Follows margin (Pops images margin) (frame.popArgument type) (image.popArgument type) := by
  cases type with
  | boolean | byte | char | short | int => exact popKind_follows matched .int
  | long => exact popKind_follows matched .long
  | object | array => exact popKind_follows matched .reference
  | float | double => exact .error _

theorem popReversed_follows {types : List FieldType} {arguments arguments' : List Value}
    (matched : frame.Matches images margin image)
    (related : List.Forall₂ (Value.Matches images) arguments arguments') :
    Follows margin (fun popped popped' => List.Forall₂ (Value.Matches images) popped.1 popped'.1 ∧
      popped.2.Matches images margin popped'.2) (frame.popReversed arguments types)
      (image.popReversed arguments' types) := by
  induction types generalizing frame image arguments arguments' with
  | nil => exact .ok ⟨related, matched⟩
  | cons type rest ih =>
      have follows := popArgument_follows matched type
      simp only [popReversed]
      generalize frame.popArgument type = popped at follows
      generalize image.popArgument type = popped' at follows
      rcases follows with ⟨values, rests⟩ | cause | spared
      · exact ih rests (.cons values related)
      · exact .error cause
      · exact .excuse spared

theorem popArguments_follows (matched : frame.Matches images margin image)
    (types : List FieldType) :
    Follows margin (fun popped popped' => List.Forall₂ (Value.Matches images) popped.1 popped'.1 ∧
      popped.2.Matches images margin popped'.2) (frame.popArguments types)
      (image.popArguments types) :=
  popReversed_follows matched .nil

/-! ## Locals -/

theorem getD_setIfInBounds (locals : Array Value) (slot other : Nat) (value : Value) :
    (locals.setIfInBounds slot value).getD other .top =
      if slot = other ∧ slot < locals.size then value else locals.getD other .top := by
  simp only [Array.getD_eq_getD_getElem?, Array.getElem?_setIfInBounds]
  by_cases same : slot = other
  · subst same
    by_cases inside : slot < locals.size
    · simp [inside]
    · simp [inside]
  · simp [same]

/-- Setting the same local in both frames. -/
theorem Matches.set (matched : frame.Matches images margin image) {slot : Nat}
    {value value' : Value}
    (inside : slot < margin.slots) (values : value.Matches images value') :
    Frame.Matches images margin { frame with locals := frame.locals.setIfInBounds slot value }
      { image with locals := image.locals.setIfInBounds slot value' } := by
  have here : slot < frame.locals.size := matched.slots ▸ inside
  have there : slot < image.locals.size := by
    rw [matched.size]
    omega
  refine { matched with
    counted := ⟨matched.counted.depth_eq, matched.counted.within⟩
    slots := by simp [matched.slots]
    size := by simp [matched.size]
    locals := fun other other_inside => ?_
    began := fun time kept => ?_ }
  · rw [getD_setIfInBounds, getD_setIfInBounds]
    by_cases same : slot = other
    · rw [if_pos ⟨same, here⟩, if_pos ⟨same, there⟩]
      exact values
    · rw [if_neg fun both => same both.1, if_neg fun both => same both.1]
      exact matched.locals other other_inside
  · rw [getD_setIfInBounds, if_neg fun both => by omega]
    exact matched.began time kept

/-- An access past the locals of the smaller frame, which the larger frame may allow. -/
theorem outOfRange_follows {α β : Type} {related : α → β → Prop} {access : Except Fault β}
    (matched : frame.Matches images margin image) {slot width : Nat}
    (outside : ¬frame.holds slot width) :
    Follows margin related (.error (frame.outOfRange slot))
      (if image.holds slot width then access else .error (image.outOfRange slot)) := by
  rcases Nat.eq_zero_or_pos margin.extra with same_room | more_room
  · have size_eq : image.locals.size = frame.locals.size := by
      rw [matched.size, matched.slots, same_room, Nat.add_zero]
    have outside' : ¬image.holds slot width := by rwa [holds, size_eq]
    rw [if_neg outside', outOfRange, outOfRange, size_eq]
    exact .error _
  · exact .excuse ⟨rfl, more_room⟩

theorem store_follows (matched : frame.Matches images margin image) (slot : Nat)
    {value value' : Value} (values : value.Matches images value') :
    Follows margin (Matches images margin) (frame.store slot value) (image.store slot value') := by
  have positive := value.width_pos
  rw [store, store]
  by_cases inside : slot + value.width ≤ margin.slots
  · have here : frame.holds slot value.width := by simpa [holds, matched.slots] using inside
    have there : image.holds slot value'.width := by
      simp only [holds, matched.size, values.width_eq, decide_eq_true_eq]
      omega
    rw [if_pos here, if_pos there, values.width_eq]
    have set := matched.set (show slot < margin.slots by omega) values
    by_cases wide : value.width = 2
    · simp only [wide, if_true]
      exact .ok (set.set (by omega) .top)
    · simp only [wide, if_false]
      exact .ok set
  · have not_here : ¬frame.holds slot value.width := by simpa [holds, matched.slots] using inside
    rw [if_neg not_here, values.width_eq]
    exact outOfRange_follows matched not_here

theorem load_follows (matched : frame.Matches images margin image) (slot : Nat) (kind : ValueKind) :
    Follows margin (Value.Matches images) (frame.load slot kind) (image.load slot kind) := by
  have positive := kind.width_pos
  unfold load
  by_cases inside : slot + kind.width ≤ margin.slots
  · have here : frame.holds slot kind.width := by simpa [holds, matched.slots] using inside
    have there : image.holds slot kind.width := by
      simp only [holds, matched.size, decide_eq_true_eq]
      omega
    rw [if_pos here, if_pos there]
    have values := matched.locals slot (by omega)
    generalize frame.locals.getD slot .top = value at values
    generalize image.locals.getD slot .top = value' at values
    cases kind <;> cases values
    case int.int value => exact .ok (.int value)
    case long.long value => exact .ok (.long value)
    case reference.reference found => exact .ok (.reference found)
    all_goals exact .error _
  · have not_here : ¬frame.holds slot kind.width := by simpa [holds, matched.slots] using inside
    rw [if_neg not_here]
    exact outOfRange_follows matched not_here

theorem layOut_follows {arguments arguments' : List Value}
    (matched : frame.Matches images margin image) (slot : Nat)
    (related : List.Forall₂ (Value.Matches images) arguments arguments') :
    Follows margin (Matches images margin) (frame.layOut slot arguments)
      (image.layOut slot arguments') := by
  induction related generalizing frame image slot with
  | nil => exact .ok matched
  | @cons value value' rest rest' values _ ih =>
      have follows := store_follows matched slot values
      simp only [layOut]
      generalize frame.store slot value = stored at follows
      generalize image.store slot value' = stored' at follows
      rcases follows with stored | cause | spared
      · simp only [values.width_eq]
        exact ih stored _
      · exact .error cause
      · exact .excuse spared

/-! ## Lack of room -/

theorem isLimit_of_push {frame : Frame} {value : Value} {fault : Fault}
    (failed : frame.push value = .error fault) : fault.isLimit = true := by
  unfold push at failed
  split at failed
  · obtain rfl := Except.error.inj failed
    rfl
  · simp at failed

theorem isLimit_of_layOut {frame : Frame} {slot : Nat} {arguments : List Value} {fault : Fault}
    (failed : frame.layOut slot arguments = .error fault) : fault.isLimit = true := by
  induction arguments generalizing frame slot with
  | nil => simp [layOut] at failed
  | cons argument rest ih =>
      simp only [layOut, store] at failed
      by_cases inside : frame.holds slot argument.width
      · simp only [if_pos inside] at failed
        exact ih failed
      · simp only [if_neg inside, Except.error.injEq] at failed
        subst failed
        rfl

end Frame
end Machine
end MethodTracing
