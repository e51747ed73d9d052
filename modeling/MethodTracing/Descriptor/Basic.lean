/-!
# Descriptors

The types of fields and methods, and the number of slots their values take.  A `long` or a
`double` takes two slots, any other value one.  Slot counts that leave the range of a class file
stay at its largest number.
-/

namespace MethodTracing

/-- The largest slot count that a class file can hold. -/
def slotCeiling : Nat := 65535

/-- The most slots the parameters of a method descriptor may take, the receiver excluded. -/
def parameterSlotLimit : Nat := 255

/-- The most dimensions an array type may have. -/
def arrayDimensionLimit : Nat := 255

/-- The type of a value. -/
inductive FieldType
  | boolean
  | byte
  | char
  | short
  | int
  | long
  | float
  | double
  /-- A class, by its name with slashes. -/
  | object (className : String)
  | array (element : FieldType)
  deriving DecidableEq

namespace FieldType

/-- Slots taken by a value of the type. -/
def width : FieldType → Nat
  | long | double => 2
  | _ => 1

/-- Array dimensions of the type. -/
def dimensions : FieldType → Nat
  | array element => element.dimensions + 1
  | _ => 0

/-- The type below all array dimensions. -/
def innermost : FieldType → FieldType
  | array element => element.innermost
  | other => other

/-- The array type of the given dimensions over an element type. -/
def arrayOf : Nat → FieldType → FieldType
  | 0, element => element
  | dimensions + 1, element => array (arrayOf dimensions element)

/-- Written form, as characters. -/
def chars : FieldType → List Char
  | boolean => ['Z']
  | byte => ['B']
  | char => ['C']
  | short => ['S']
  | int => ['I']
  | long => ['J']
  | float => ['F']
  | double => ['D']
  | object className => 'L' :: className.toList ++ [';']
  | array element => '[' :: element.chars

/-- Written form of a type. -/
def text (type : FieldType) : String :=
  String.ofList type.chars

theorem width_pos (type : FieldType) : 0 < type.width := by
  cases type <;> simp [width]

end FieldType

/-- The type of a method: its parameters in order and its result, if it has one. -/
structure MethodType where
  /-- Declared parameters, the receiver excluded. -/
  parameters : List FieldType
  /-- Result type; `none` for a method without a value. -/
  result : Option FieldType
  deriving DecidableEq

namespace MethodType

/-- Slots of values of the given types, one after another. -/
def totalWidth : List FieldType → Nat
  | [] => 0
  | type :: rest => type.width + totalWidth rest

/-- Slots of the declared parameters, counted without a ceiling. -/
def parameterWidth (type : MethodType) : Nat :=
  totalWidth type.parameters

/-- Slots of the declared parameters. -/
def parameterSlots (type : MethodType) : Nat :=
  min slotCeiling type.parameterWidth

/-- Slots that a call leaves on the caller's stack. -/
def resultSlots (type : MethodType) : Nat :=
  (type.result.map FieldType.width).getD 0

/-- Written form of the result, as characters. -/
def resultChars : Option FieldType → List Char
  | none => ['V']
  | some type => type.chars

/-- Written form, as characters. -/
def chars (type : MethodType) : List Char :=
  '(' :: type.parameters.flatMap FieldType.chars ++ ')' :: resultChars type.result

/-- Written form of a method type. -/
def text (type : MethodType) : String :=
  String.ofList type.chars

end MethodType
end MethodTracing
