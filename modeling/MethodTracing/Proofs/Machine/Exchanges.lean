import MethodTracing.Proofs.Machine.Frames

/-!
# Exchanges of operands

What an operation on a frame does where it succeeds: it exchanges operands for others and leaves
those below them as they are, or it writes a value to the locals.  Either way the recorded depth
stays the count of the operands.
-/

namespace MethodTracing
namespace Machine

/-- If a computation answers, its answer has a property. -/
def Answers {ε α : Type} (property : α → Prop) (computation : Except ε α) : Prop :=
  ∀ answer, computation = .ok answer → property answer

namespace Answers

variable {ε α β : Type} {property : α → Prop} {later : β → Prop}

theorem ok {answer : α} (holds : property answer) :
    Answers property (.ok answer : Except ε α) := by
  rintro _ ⟨⟩
  exact holds

theorem error (cause : ε) : Answers property (.error cause : Except ε α) := by
  rintro _ ⟨⟩

theorem bind {computation : Except ε α} {next : α → Except ε β}
    (answers : Answers property computation)
    (rest : ∀ answer, property answer → Answers later (next answer)) :
    Answers later (computation >>= next) := by
  cases computation with
  | ok answer => exact rest answer (answers answer rfl)
  | error cause => exact .error cause

theorem map {computation : Except ε α} {change : α → β} (answers : Answers property computation)
    (rest : ∀ answer, property answer → later (change answer)) :
    Answers later (computation.map change) := by
  cases computation with
  | ok answer => exact .ok (rest answer (answers answer rfl))
  | error cause => exact .error cause

theorem imp {weaker : α → Prop} {computation : Except ε α} (answers : Answers property computation)
    (weakens : ∀ answer, property answer → weaker answer) : Answers weaker computation :=
  fun answer answered => weakens answer (answers answer answered)

end Answers

theorem valueWidth_append (upper lower : List Value) :
    valueWidth (upper ++ lower) = valueWidth upper + valueWidth lower := by
  induction upper with
  | nil => simp [valueWidth]
  | cons value rest ih => rw [List.cons_append, valueWidth, valueWidth, ih, Nat.add_assoc]

theorem eq_nil_of_valueWidth {values : List Value} (slotless : valueWidth values = 0) :
    values = [] := by
  cases values with
  | nil => rfl
  | cons value rest =>
      have := value.width_pos
      simp only [valueWidth] at slotless
      omega

/-- The kind of a value that is set. -/
def Value.kind? : Value → Option ValueKind
  | .int _ => some .int
  | .long _ => some .long
  | .reference _ => some .reference
  | .top => none

theorem Value.width_of_kind? {value : Value} {kind : ValueKind}
    (is_kind : value.kind? = some kind) : value.width = kind.width := by
  cases value <;> cases is_kind <;> rfl

/-- A value to be stored into the locals from a slot on. -/
structure Write where
  /-- The first slot. -/
  slot : Nat
  /-- The value. -/
  value : Value
  deriving DecidableEq

/-- The locals after a value is stored; a `long` unsets the slot after it. -/
def Write.onto (write : Write) (locals : Array Value) : Array Value :=
  let set := locals.setIfInBounds write.slot write.value
  if write.value.width = 2 then set.setIfInBounds (write.slot + 1) .top else set

theorem Write.size_onto (write : Write) (locals : Array Value) :
    (write.onto locals).size = locals.size := by
  simp only [onto]
  split <;> simp

namespace Frame

/-- The accounts of a frame are in order. -/
structure Balanced (method : Method) (frame : Frame) : Prop where
  /-- The recorded depth is the count of the operands and keeps to the limit. -/
  counted : frame.Counted
  /-- The limit is that of the method. -/
  maxStack_eq : frame.maxStack = method.maxStack
  /-- Every operand is set. -/
  filled : Value.top ∉ frame.stack
  /-- There are the locals that the method declares. -/
  size_eq : frame.locals.size = method.maxLocals.toNat

/-- Operands of `taken` slots are exchanged for operands of `put` slots; what lies below stays. -/
def Exchanges (taken put : Nat) (before after : Frame) : Prop :=
  ∃ off kept on, before.stack = off ++ kept ∧ valueWidth off = taken ∧
    after.stack = on ++ kept ∧ valueWidth on = put

/-- An exchange of operands that leaves the locals alone. -/
structure Trades (method : Method) (taken put : Nat) (before after : Frame) : Prop where
  balanced : after.Balanced method
  exchanges : before.Exchanges taken put after
  locals_eq : after.locals = before.locals

/-- The frame without a value on top. -/
def without (frame : Frame) (value : Value) : Frame :=
  { frame with stack := frame.stack.tail, depth := frame.depth - .ofNat value.width }

/-- A value is taken off the operands. -/
structure Takes (method : Method) (frame : Frame) (value : Value) (rest : Frame) : Prop where
  top_eq : frame.stack.head? = some value
  rest_eq : rest = frame.without value
  set : value ≠ .top
  trades : frame.Trades method value.width 0 rest

/-- What an instruction is about to write to the locals. -/
def write? (frame : Frame) : Instruction → Option Write
  | .store _ slot => frame.stack.head?.map fun value => ⟨slot.toNat, value⟩
  | .iinc slot delta =>
      match frame.locals[slot.toNat]? with
      | some (.int value) => some ⟨slot.toNat, .int (value + delta.toInt32)⟩
      | _ => none
  | _ => none

/-- The locals of a frame change by a write inside of them, if by anything. -/
def Wrote (before after : Frame) : Option Write → Prop
  | none => after.locals = before.locals
  | some write =>
      write.slot + write.value.width ≤ before.locals.size ∧ after.locals = write.onto before.locals

variable {method : Method} {frame after : Frame}

theorem balanced_empty (method : Method) :
    (empty method.maxStack method.maxLocals.toNat).Balanced method :=
  ⟨counted_empty _ _, rfl, by simp [empty], by simp [empty]⟩

/-- Under a low limit the recorded depth is that of the operands. -/
theorem Balanced.depth_eq (balanced : frame.Balanced method)
    (low : method.maxStack.toNat ≤ exactLimit) : frame.depth.toNat = valueWidth frame.stack :=
  balanced.counted.exact (balanced.maxStack_eq ▸ low)

/-- The slots of the operands change by what is put on less what is taken off. -/
theorem Exchanges.width_eq {taken put : Nat} (exchanges : frame.Exchanges taken put after) :
    valueWidth after.stack + taken = valueWidth frame.stack + put := by
  obtain ⟨off, kept, on, before_eq, rfl, after_eq, rfl⟩ := exchanges
  rw [before_eq, after_eq, valueWidth_append, valueWidth_append]
  omega

/-- So does their count. -/
theorem Exchanges.depth_eq {taken put : Nat} (exchanges : frame.Exchanges taken put after)
    (before_counted : frame.Counted) (after_counted : after.Counted) :
    after.depth + .ofNat taken = frame.depth + .ofNat put := by
  rw [before_counted.depth_eq, after_counted.depth_eq, ← UInt16.ofNat_add, ← UInt16.ofNat_add,
    exchanges.width_eq]

namespace Trades

variable {middle : Frame} {first second put : Nat}

theorem refl (balanced : frame.Balanced method) : frame.Trades method 0 0 frame :=
  ⟨balanced, ⟨[], frame.stack, [], rfl, rfl, rfl, rfl⟩, rfl⟩

/-- Taking off further operands from below. -/
theorem thenTrade (left : frame.Trades method first 0 middle)
    (right : middle.Trades method second put after) :
    frame.Trades method (first + second) put after := by
  obtain ⟨off, kept, on, before_eq, rfl, middle_eq, on_eq⟩ := left.exchanges
  obtain ⟨off', kept', on', middle_eq', rfl, after_eq, rfl⟩ := right.exchanges
  obtain rfl : on = [] := eq_nil_of_valueWidth on_eq
  obtain rfl : kept = off' ++ kept' := middle_eq.symm.trans middle_eq'
  refine ⟨right.balanced, ⟨off ++ off', kept', on', ?_, valueWidth_append _ _, after_eq, rfl⟩,
    right.locals_eq.trans left.locals_eq⟩
  rw [before_eq, List.append_assoc]

/-- Putting on further operands. -/
theorem thenPut {taken : Nat} (left : frame.Trades method taken first middle)
    (right : middle.Trades method 0 second after) :
    frame.Trades method taken (second + first) after := by
  obtain ⟨off, kept, on, before_eq, rfl, middle_eq, rfl⟩ := left.exchanges
  obtain ⟨off', kept', on', middle_eq', off_eq, after_eq, rfl⟩ := right.exchanges
  obtain rfl : off' = [] := eq_nil_of_valueWidth off_eq
  obtain rfl : on ++ kept = kept' := middle_eq.symm.trans middle_eq'
  refine ⟨right.balanced, ⟨off, kept, on' ++ on, before_eq, rfl, ?_, valueWidth_append _ _⟩,
    right.locals_eq.trans left.locals_eq⟩
  rw [after_eq, List.append_assoc]

end Trades

/-! ## The operand stack -/

theorem push_trades (balanced : frame.Balanced method) (value : Value) (set : value ≠ .top) :
    Answers (frame.Trades method 0 value.width) (frame.push value) := by
  unfold push
  split
  · exact .error _
  · rename_i fits
    refine .ok ⟨{ balanced with
        counted := balanced.counted.push (UInt16.not_lt.mp fits)
        filled := ?_ },
      ⟨[], frame.stack, [value], rfl, rfl, rfl, rfl⟩, rfl⟩
    simp [balanced.filled, set.symm]

theorem pop_takes (balanced : frame.Balanced method) :
    Answers (fun popped => frame.Takes method popped.1 popped.2) frame.pop := by
  unfold pop
  cases stack_eq : frame.stack with
  | nil => exact .error _
  | cons value rest =>
      have filled := balanced.filled
      rw [stack_eq, List.mem_cons, not_or] at filled
      exact .ok ⟨by rw [stack_eq]; rfl, by rw [without, stack_eq]; rfl, Ne.symm filled.1,
        { balanced with counted := balanced.counted.pop stack_eq, filled := filled.2 },
        ⟨[value], rest, [], stack_eq, rfl, rfl, rfl⟩, rfl⟩

theorem popInt_takes (balanced : frame.Balanced method) :
    Answers (fun popped => frame.Takes method (.int popped.1) popped.2) frame.popInt := by
  have popped := pop_takes balanced
  unfold popInt
  split
  · rename_i value rest found
    exact .ok (popped _ found)
  · exact .error _
  · exact .error _

theorem popLong_takes (balanced : frame.Balanced method) :
    Answers (fun popped => frame.Takes method (.long popped.1) popped.2) frame.popLong := by
  have popped := pop_takes balanced
  unfold popLong
  split
  · rename_i value rest found
    exact .ok (popped _ found)
  · exact .error _
  · exact .error _

theorem popReference_takes (balanced : frame.Balanced method) :
    Answers (fun popped => frame.Takes method (.reference popped.1) popped.2)
      frame.popReference := by
  have popped := pop_takes balanced
  unfold popReference
  split
  · rename_i value rest found
    exact .ok (popped _ found)
  · exact .error _
  · exact .error _

theorem popNarrow_takes (balanced : frame.Balanced method) :
    Answers (fun popped => popped.1.width = 1 ∧ frame.Takes method popped.1 popped.2)
      frame.popNarrow := by
  have popped := pop_takes balanced
  unfold popNarrow
  split
  · rename_i value rest found
    split
    · rename_i narrow
      exact .ok ⟨narrow, popped _ found⟩
    · exact .error _
  · exact .error _

theorem popKind_takes (balanced : frame.Balanced method) (kind : ValueKind) :
    Answers (fun popped => popped.1.width = kind.width ∧ frame.Takes method popped.1 popped.2)
      (frame.popKind kind) := by
  cases kind with
  | int => exact (popInt_takes balanced).map fun popped takes => ⟨rfl, takes⟩
  | long => exact (popLong_takes balanced).map fun popped takes => ⟨rfl, takes⟩
  | reference => exact (popReference_takes balanced).map fun popped takes => ⟨rfl, takes⟩

/-- A frame whose operands are popped for the arguments of a call. -/
theorem popReversed_trades (balanced : frame.Balanced method) (arguments : List Value)
    (types : List FieldType) :
    Answers (fun popped => popped.2.Balanced method ∧ popped.2.locals = frame.locals)
      (frame.popReversed arguments types) := by
  induction types generalizing frame arguments with
  | nil => exact .ok ⟨balanced, rfl⟩
  | cons type rest ih =>
      have popped : Answers (fun popped => frame.Takes method popped.1 popped.2)
          (frame.popArgument type) := by
        cases type with
        | boolean | byte | char | short | int =>
            exact (popKind_takes balanced .int).imp fun _ popped => popped.2
        | long => exact (popKind_takes balanced .long).imp fun _ popped => popped.2
        | object | array => exact (popKind_takes balanced .reference).imp fun _ popped => popped.2
        | float | double => exact .error _
      simp only [popReversed]
      cases found : frame.popArgument type with
      | error fault => exact .error _
      | ok answer =>
          have taken := (popped answer found).trades
          rw [← taken.locals_eq]
          exact ih taken.balanced _

/-! ## Locals -/

/-- A local is loaded if it holds a value of the kind and there are locals for all of it. -/
theorem load_eq_ok_iff {slot : Nat} {kind : ValueKind} {value : Value} :
    frame.load slot kind = .ok value ↔
      slot + kind.width ≤ frame.locals.size ∧ frame.locals[slot]? = some value ∧
        value.kind? = some kind := by
  by_cases inside : slot + kind.width ≤ frame.locals.size
  · have positive := kind.width_pos
    have found : frame.locals[slot]? = some (frame.locals.getD slot .top) := by
      rw [Array.getD_eq_getD_getElem?, Array.getElem?_eq_getElem (by omega), Option.getD_some]
    have here : frame.holds slot kind.width := by simpa [holds] using inside
    unfold load
    rw [if_pos here, found]
    simp only [inside, true_and, Option.some.injEq]
    generalize frame.locals.getD slot .top = held
    cases kind <;> cases held <;> simp <;> rintro rfl <;> simp [Value.kind?]
  · unfold load
    simp [holds, inside]

/-- A value is stored where there are locals for all of it. -/
theorem store_eq_ok_iff {slot : Nat} {value : Value} :
    frame.store slot value = .ok after ↔
      slot + value.width ≤ frame.locals.size ∧
        after = { frame with locals := (Write.mk slot value).onto frame.locals } := by
  by_cases inside : frame.holds slot value.width
  · have slots : slot + value.width ≤ frame.locals.size := by simpa [holds] using inside
    rw [store, if_pos inside, Except.ok.injEq]
    exact ⟨fun same => ⟨slots, same.symm⟩, fun both => both.2.symm⟩
  · have slots : ¬slot + value.width ≤ frame.locals.size := by simpa [holds] using inside
    simp [store, if_neg inside, slots]

theorem store_balanced (balanced : frame.Balanced method) (slot : Nat) (value : Value) :
    Answers (fun after => after.Balanced method ∧ after.stack = frame.stack ∧
      frame.Wrote after (some ⟨slot, value⟩)) (frame.store slot value) := by
  intro after stored
  obtain ⟨inside, rfl⟩ := store_eq_ok_iff.mp stored
  exact ⟨{ balanced with
      counted := ⟨balanced.counted.depth_eq, balanced.counted.within⟩
      size_eq := (Write.size_onto _ _).trans balanced.size_eq },
    rfl, inside, rfl⟩

theorem layOut_balanced (balanced : frame.Balanced method) (slot : Nat) (arguments : List Value) :
    Answers (Balanced method) (frame.layOut slot arguments) := by
  induction arguments generalizing frame slot with
  | nil => exact .ok balanced
  | cons argument rest ih =>
      have stored := store_balanced balanced slot argument
      simp only [layOut]
      cases found : frame.store slot argument with
      | error fault => exact .error _
      | ok frame => exact ih (stored frame found).1 _

end Frame

end Machine
end MethodTracing
