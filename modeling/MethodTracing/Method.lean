import MethodTracing.Annotation
import MethodTracing.Instruction.Basic

/-!
# Methods and classes

A method is a declaration together with a body and the limits of its frame; a class file is a named
list of methods.
-/

namespace MethodTracing

/-- Access flags of a method, one bit each. -/
structure AccessFlags where
  /-- The flags as one word. -/
  bits : UInt16
  deriving DecidableEq

namespace AccessFlags

/-- Whether all the other flags are set. -/
def contains (flags other : AccessFlags) : Bool :=
  flags.bits &&& other.bits == other.bits

/-- The flags of either word. -/
def union (flags other : AccessFlags) : AccessFlags :=
  ⟨flags.bits ||| other.bits⟩

/-- The named flags, in ascending order of their bits. -/
def named : List (String × AccessFlags) :=
  [("none", ⟨0⟩), ("public", ⟨0x0001⟩), ("private", ⟨0x0002⟩), ("protected", ⟨0x0004⟩),
    ("static", ⟨0x0008⟩), ("final", ⟨0x0010⟩), ("bridge", ⟨0x0040⟩), ("synthetic", ⟨0x1000⟩)]

/-- Whether the flag of methods without a receiver is set. -/
def isStatic (flags : AccessFlags) : Bool :=
  flags.contains ⟨0x0008⟩

end AccessFlags

/-- The kind of declaration that a method was compiled from. -/
inductive MethodKind
  | function
  | constructor
  | staticInitializer
  /-- A member made by the compiler. -/
  | synthetic
  deriving DecidableEq

/-- What is known of a method before its body. -/
structure Declaration where
  /-- Name of the declaring class, with slashes; empty when unknown. -/
  owner : String
  /-- Name of the method. -/
  name : String
  /-- Type of the method; `none` for a member that is no usable function. -/
  type : Option MethodType
  /-- Access flags. -/
  access : AccessFlags
  /-- Kind of the declaration. -/
  kind : MethodKind
  /-- Annotations. -/
  annotations : AnnotationSet
  deriving DecidableEq

namespace Declaration

/-- The name with its class, dotted; the name alone when the class is unknown. -/
def qualifiedName (declaration : Declaration) : String :=
  if declaration.owner.isEmpty then declaration.name
  else dotted declaration.owner ++ "." ++ declaration.name

/-- Whether the method is woven already. -/
def isTraced (declaration : Declaration) : Bool :=
  declaration.annotations.contains tracedTag

/-- Mark the method as woven. -/
def tagTraced (declaration : Declaration) : Declaration :=
  { declaration with annotations := declaration.annotations.insert tracedTag }

/-- Slots taken by a receiver. -/
def receiverSlots (declaration : Declaration) : Nat :=
  if declaration.access.isStatic then 0 else 1

/-- Slots taken by the receiver and the parameters when the method starts, up to the ceiling. -/
def argumentSlots (declaration : Declaration) : Nat :=
  min slotCeiling
    ((declaration.type.map MethodType.parameterSlots).getD 0 + declaration.receiverSlots)

end Declaration

/-- A compiled method. -/
structure Method where
  /-- What is known of the method before its body. -/
  declaration : Declaration
  /-- The body. -/
  instructions : List Instruction
  /-- The most slots the operand stack may take. -/
  maxStack : UInt16
  /-- The number of local slots. -/
  maxLocals : UInt16
  deriving DecidableEq

/-- The number of return instructions in the body. -/
def Method.returnCount (method : Method) : Nat :=
  method.instructions.countP Instruction.isReturn

/-- The method table of one class. -/
structure ClassFile where
  /-- Name of the class, with slashes. -/
  name : String
  /-- Methods in declaration order. -/
  methods : List Method
  deriving DecidableEq

namespace ClassFile

/-- Make the class the owner of all its methods. -/
def adopt (file : ClassFile) : ClassFile :=
  { file with
    methods := file.methods.map fun method =>
      { method with declaration := { method.declaration with owner := file.name } } }

/-- The first method of a name. -/
def method? (file : ClassFile) (name : String) : Option Method :=
  file.methods.find? (·.declaration.name == name)

/-- The first method without receiver that a call names. -/
def callee? (file : ClassFile) (call : MethodRef) : Option Method :=
  file.methods.find? fun method =>
    method.declaration.name == call.name && method.declaration.access.isStatic &&
      method.declaration.type == some call.type

end ClassFile
end MethodTracing
