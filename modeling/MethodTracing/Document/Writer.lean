import MethodTracing.Document.Names
import MethodTracing.Json.Printer

/-!
# Writing class documents

The JSON form of instructions, methods and classes.  Members come in a fixed order, and the owner of
a method is left out when it is unknown.
-/

namespace MethodTracing

/-- The form of a member that a call names. -/
def MethodRef.toJson (method : MethodRef) : Json :=
  .record
    [("owner", .text method.owner), ("name", .text method.name),
      ("descriptor", .text method.type.text)]

/-- The form of a field that an instruction names. -/
def FieldRef.toJson (field : FieldRef) : Json :=
  .record
    [("owner", .text field.owner), ("name", .text field.name),
      ("descriptor", .text field.type.text)]

/-- The form of a label. -/
def Label.toJson (label : Label) : Json :=
  .int label.number.toNat

/-- The form of a branch. -/
def branchToJson (condition : Condition) (target : Label) : Json :=
  .record [("cond", .text condition.name), ("target", target.toJson)]

namespace Instruction

/-- What a document tells of an instruction besides its name. -/
def bodyToJson : Instruction → Option Json
  | label target | goto target => some target.toJson
  | iconst value => some (.int value.toInt)
  | lconst value => some (.int value.toInt)
  | ldc content => some (.text content)
  | load _ slot | store _ slot => some (.int slot.toNat)
  | iinc slot delta => some (.record [("slot", .int slot.toNat), ("delta", .int delta.toInt)])
  | branchZero condition target | branchCompare condition target =>
      some (branchToJson condition target)
  | getStatic field => some field.toJson
  | new className => some (.text className)
  | invoke _ method => some method.toJson
  | nop | intArithmetic _ | longArithmetic _ | dup | pop | pop2 | swap | ret _ | athrow => none

/-- The form of an instruction: its name, or its name with a body. -/
def toJson (instruction : Instruction) : Json :=
  match instruction.bodyToJson with
  | none => .text instruction.tag
  | some body => .record [(instruction.tag, body)]

end Instruction

/-- The members that tell what is known of a method before its body. -/
def Declaration.toMembers (declaration : Declaration) : List (String × Json) :=
  (if declaration.owner.isEmpty then [] else [("owner", .text declaration.owner)]) ++
    [("name", .text declaration.name),
      ("descriptor", .ofOption (declaration.type.map fun type => .text type.text)),
      ("access", .int declaration.access.bits.toNat),
      ("kind", .text declaration.kind.tag),
      ("annotations", .texts declaration.annotations.names)]

/-- The form of a method. -/
def Method.toJson (method : Method) : Json :=
  .record
    (method.declaration.toMembers ++
      [("instructions", .array (method.instructions.map Instruction.toJson)),
        ("max_stack", .int method.maxStack.toNat),
        ("max_locals", .int method.maxLocals.toNat)])

namespace ClassFile

/-- The form of a class. -/
def toJson (file : ClassFile) : Json :=
  .record [("name", .text file.name), ("methods", .array (file.methods.map Method.toJson))]

/-- The text of a class. -/
def print (file : ClassFile) : String :=
  file.toJson.indented

end ClassFile
end MethodTracing
