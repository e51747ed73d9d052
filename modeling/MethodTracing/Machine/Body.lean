import MethodTracing.Method
import Std.Data.HashMap.Lemmas

/-!
# Bodies made ready

A body is executed by index.  Instructions and the places of labels are kept in tables, so that a
look-up takes the same time everywhere in a body.  Main statements: both tables answer what the list
of instructions says, and a label that is marked twice leads to its last place.
-/

namespace MethodTracing
namespace Machine

/-- Index of the last place that marks a label, in a part that begins at `index`. -/
def lastMarking? (label : Label) (index : Nat) : List Instruction → Option Nat
  | [] => none
  | instruction :: rest =>
      match lastMarking? label (index + 1) rest with
      | some position => some position
      | none => if instruction.marked? = some label then some index else none

/-- Record the places of labels in a part that begins at `index`; later places replace earlier
ones. -/
def recordMarkings (index : Nat) (places : Std.HashMap Label Nat) :
    List Instruction → Std.HashMap Label Nat
  | [] => places
  | instruction :: rest =>
      match instruction.marked? with
      | none => recordMarkings (index + 1) places rest
      | some label => recordMarkings (index + 1) (places.insert label index) rest

theorem getElem?_recordMarkings (label : Label) (index : Nat) (places : Std.HashMap Label Nat)
    (code : List Instruction) :
    (recordMarkings index places code)[label]? =
      (lastMarking? label index code).or places[label]? := by
  induction code generalizing index places with
  | nil => simp [recordMarkings, lastMarking?]
  | cons instruction rest ih =>
      simp only [recordMarkings, lastMarking?]
      split
      · rename_i unmarked
        rw [ih]
        cases lastMarking? label (index + 1) rest <;> simp [unmarked]
      · rename_i marked is_marked
        rw [ih, Std.HashMap.getElem?_insert, is_marked]
        cases lastMarking? label (index + 1) rest with
        | some position => simp
        | none => by_cases same : marked = label <;> simp [same]

/-- A method with the tables of its body. -/
structure Body where
  /-- The method. -/
  method : Method
  /-- Its instructions. -/
  code : Array Instruction
  /-- The last places of its labels. -/
  places : Std.HashMap Label Nat
  code_eq : code = method.instructions.toArray
  places_eq : places = recordMarkings 0 ∅ method.instructions

namespace Body

/-- Make the body of a method ready. -/
def ofMethod (method : Method) : Body :=
  ⟨method, method.instructions.toArray, recordMarkings 0 ∅ method.instructions, rfl, rfl⟩

/-- The instruction at an index. -/
def instruction? (body : Body) (index : Nat) : Option Instruction :=
  body.code[index]?

/-- The index that a label leads to. -/
def place? (body : Body) (label : Label) : Option Nat :=
  body.places[label]?

theorem instruction?_eq (body : Body) (index : Nat) :
    body.instruction? index = body.method.instructions[index]? := by
  simp [instruction?, body.code_eq]

theorem place?_eq (body : Body) (label : Label) :
    body.place? label = lastMarking? label 0 body.method.instructions := by
  simp [place?, body.places_eq, getElem?_recordMarkings]

end Body
end Machine
end MethodTracing
