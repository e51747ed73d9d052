import MethodTracing.Descriptor.Parser
import MethodTracing.Document.Names
import MethodTracing.Json.Holdable
import MethodTracing.Json.Parser

/-!
# Reading class documents

Classes, methods and instructions from their JSON form.  A record is an object, or the array of
its fields in order; members that are not known are skipped, and a known one must not come twice.

A method is always an object.  What is known of it before its body is found among its other
members, so those have to be held until the end.
-/

namespace MethodTracing
namespace Document

/-- The members of an object whose names all have characters. -/
def namedMembers? (members : List (Option String × Json)) : Option (List (String × Json)) :=
  members.mapM fun (name, value) => name.map fun name => (name, value)

/-- The value of a member, `none` inside when there is no such member; a member that comes twice
is an error. -/
def member? (members : List (String × Json)) (name : String) : Option (Option Json) :=
  match members.filter fun member => member.1 == name with
  | [] => some none
  | [(_, value)] => some (some value)
  | _ => none

/-- The fields of a record in the order of their names; a missing field is `none` inside. -/
def fields? (names : List String) : Json → Option (List (Option Json))
  | .object members => do
      let members ← namedMembers? members
      names.mapM (member? members)
  | .array items =>
      if items.length ≤ names.length then
        some (items.map some ++ List.replicate (names.length - items.length) none)
      else none
  | _ => none

/-- A field that may be missing. -/
def orDefault {α : Type} (default : α) (read : Json → Option α) : Option Json → Option α
  | none => some default
  | some value => read value

/-- A number of 16 bits. -/
def uint16? (json : Json) : Option UInt16 :=
  (json.int? 0 65535).map fun value => .ofNat value.toNat

/-- A label. -/
def label? (json : Json) : Option Label :=
  (json.int? 0 4294967295).map fun value => ⟨.ofNat value.toNat⟩

/-- Texts in an array. -/
def texts? (json : Json) : Option (List String) := do
  let items ← json.items?
  items.mapM Json.text?

/-- The choice of a name among values without further content: the name itself, or an object with
the name and a content that `empty` accepts. -/
def choice? {α : Type} (empty : Json → Bool) (tag : α → String) (choices : List α) :
    Json → Option α
  | .string (some name) => choices.find? fun choice => tag choice == name
  | .object [(some name, content)] =>
      if empty content then choices.find? fun choice => tag choice == name else none
  | _ => none

/-- No content. -/
def isNull : Json → Bool
  | .null => true
  | _ => false

/-- No content, as it may be written where a value was held before it was read. -/
def isNullOrEmpty : Json → Bool
  | .null | .object [] => true
  | _ => false

/-- A type of a field. -/
def fieldType? (json : Json) : Option FieldType := do
  let text ← json.text?
  (FieldType.parse text).toOption

/-- A type of a method. -/
def methodType? (json : Json) : Option MethodType := do
  let text ← json.text?
  (MethodType.parse text).toOption

/-- A field that an instruction names. -/
def fieldRef? (json : Json) : Option FieldRef := do
  match ← fields? ["owner", "name", "descriptor"] json with
  | [some owner, some name, some type] =>
      return ⟨← owner.text?, ← name.text?, ← fieldType? type⟩
  | _ => none

/-- A method that a call names. -/
def methodRef? (json : Json) : Option MethodRef := do
  match ← fields? ["owner", "name", "descriptor"] json with
  | [some owner, some name, some type] =>
      return ⟨← owner.text?, ← name.text?, ← methodType? type⟩
  | _ => none

/-- A comparison. -/
def condition? (json : Json) : Option Condition :=
  choice? isNull Condition.name Condition.all json

/-- The comparison and the target of a branch. -/
def branch? (json : Json) : Option (Condition × Label) := do
  match ← fields? ["cond", "target"] json with
  | [some condition, some target] => return (← condition? condition, ← label? target)
  | _ => none

/-- The slot and the amount of an increment. -/
def increment? (json : Json) : Option Instruction := do
  match ← fields? ["slot", "delta"] json with
  | [some slot, some delta] =>
      return .iinc (← uint16? slot) (.ofInt (← delta.int? (-32768) 32767))
  | _ => none

/-- An instruction that has a body. -/
def bodied? (tag : String) (body : Json) : Option Instruction :=
  match tag with
  | "label" => (label? body).map .label
  | "iconst" => (body.int? (-2147483648) 2147483647).map fun value => .iconst (.ofInt value)
  | "lconst" =>
      (body.int? (-9223372036854775808) 9223372036854775807).map fun value =>
        .lconst (.ofInt value)
  | "ldc" => body.text?.map .ldc
  | "iload" => (uint16? body).map (.load .int)
  | "lload" => (uint16? body).map (.load .long)
  | "aload" => (uint16? body).map (.load .reference)
  | "istore" => (uint16? body).map (.store .int)
  | "lstore" => (uint16? body).map (.store .long)
  | "astore" => (uint16? body).map (.store .reference)
  | "iinc" => increment? body
  | "if" => (branch? body).map fun (condition, target) => .branchZero condition target
  | "if_icmp" => (branch? body).map fun (condition, target) => .branchCompare condition target
  | "goto" => (label? body).map .goto
  | "get_static" => (fieldRef? body).map .getStatic
  | "new" => body.text?.map .new
  | "invoke_static" => (methodRef? body).map (.invoke .direct)
  | "invoke_virtual" => (methodRef? body).map (.invoke .virtual)
  | "invoke_special" => (methodRef? body).map (.invoke .special)
  | _ => none

/-- An instruction. -/
def instruction? (json : Json) : Option Instruction :=
  match choice? isNull Instruction.tag Instruction.plain json with
  | some instruction => some instruction
  | none =>
      match json with
      | .object [(some tag, body)] => bodied? tag body
      | _ => none

/-- Instructions in an array. -/
def instructions? (json : Json) : Option (List Instruction) := do
  let items ← json.items?
  items.mapM instruction?

/-- A type of a method, or null. -/
def optionalType? : Json → Option (Option MethodType)
  | .null => some none
  | json => (methodType? json).map some

/-- The names of the fields of a declaration. -/
def declarationNames : List String :=
  ["owner", "name", "descriptor", "access", "kind", "annotations"]

/-- A declaration from its fields; `empty` tells which contents a kind may be given. -/
def ofFields? (empty : Json → Bool) : List (Option Json) → Option Declaration
  | [owner, some name, type, access, kind, annotations] => do
      return {
        owner := ← orDefault "" Json.text? owner
        name := ← name.text?
        type := ← orDefault none optionalType? type
        access := ⟨← orDefault 0 uint16? access⟩
        kind := ← orDefault .function (choice? empty MethodKind.tag MethodKind.all) kind
        annotations := .ofList (← orDefault [] texts? annotations) }
  | _ => none

/-- A declaration that is a document of its own. -/
def declaration? (json : Json) : Option Declaration := do
  ofFields? isNull (← fields? declarationNames json)

/-- The names of the fields of a method besides those of its declaration. -/
def bodyNames : List String :=
  ["instructions", "max_stack", "max_locals"]

/-- A method that lies `nesting` levels deep, itself included. -/
def method? (nesting : Nat) : Json → Option Method
  | .object members => do
      let members ← namedMembers? members
      let held := members.filter fun member => !bodyNames.contains member.1
      if !held.all fun member => member.2.isHoldable (Json.nestingLimit - nesting) then none
      else
        match ← bodyNames.mapM (member? members) with
        | [instructions, some maxStack, some maxLocals] =>
            return {
              declaration := ← ofFields? isNullOrEmpty (← declarationNames.mapM (member? members))
              instructions := ← orDefault [] instructions? instructions
              maxStack := ← uint16? maxStack
              maxLocals := ← uint16? maxLocals }
        | _ => none
  | _ => none

/-- A class; it becomes the owner of its methods. -/
def classFile? (json : Json) : Option ClassFile := do
  match ← fields? ["name", "methods"] json with
  | [some name, methods] =>
      let methods ← orDefault [] Json.items? methods
      return ClassFile.adopt ⟨← name.text?, ← methods.mapM (method? 3)⟩
  | _ => none

end Document

/-- Read the text of a class. -/
def ClassFile.parse (text : String) : Option ClassFile := do
  Document.classFile? (← Json.parse text)

end MethodTracing
