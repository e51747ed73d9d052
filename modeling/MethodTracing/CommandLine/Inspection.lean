import MethodTracing.CommandLine.Command
import MethodTracing.Document.Writer
import MethodTracing.Selection

/-!
# Inspection

The methods of a class with the verdict of the settings on each, as a text or as a JSON document.
-/

namespace MethodTracing
namespace CommandLine

/-- What is listed of a method. -/
structure MethodSummary where
  /-- The method. -/
  method : Method
  /-- Why it is not selected, if it is not. -/
  rejection : Option Rejection
  /-- The lines of its body, if they are asked for. -/
  code : Option (List String)

namespace MethodSummary

/-- The summary of a method under the given settings. -/
def ofMethod (settings : Settings) (code : Bool) (method : Method) : MethodSummary :=
  ⟨method, settings.rejection? method.declaration,
    if code then some (method.instructions.map Instruction.listing) else none⟩

/-- The summary as a member of a JSON document. -/
def toJson (summary : MethodSummary) : Json :=
  let method := summary.method
  .record
    ([("name", .text method.declaration.name),
        ("descriptor", .ofOption (method.declaration.type.map fun type => .text type.text)),
        ("kind", .text method.declaration.kind.tag),
        ("annotations", .texts method.declaration.annotations.names),
        ("selected", .boolean summary.rejection.isNone)] ++
      (summary.rejection.map fun rejection => ("skipped", Json.text rejection.name)).toList ++
      [("max_stack", .int method.maxStack.toNat),
        ("max_locals", .int method.maxLocals.toNat),
        ("returns", .int method.returnCount)] ++
      (summary.code.map fun lines => ("code", Json.texts lines)).toList)

/-- A number at the right end of a column of the given width. -/
def rightAligned (width value : Nat) : String :=
  let digits := Text.decimal value
  String.ofList (List.replicate (width - digits.length) ' ') ++ digits

/-- Lines of a body with their indices. -/
def codeLines (index : Nat) : List String → List String
  | [] => []
  | line :: rest =>
      ("    " ++ rightAligned 4 index ++ ": " ++ line) :: codeLines (index + 1) rest

/-- The summary as lines. -/
def toLines (summary : MethodSummary) : List String :=
  let method := summary.method
  let verdict :=
    match summary.rejection with
    | none => "selected"
    | some rejection => "skipped: " ++ rejection.message
  ("  " ++ method.declaration.name ++
      (method.declaration.type.map MethodType.text).getD "" ++ "  [" ++ verdict ++
      "]  max_stack=" ++ Text.decimal method.maxStack.toNat ++ " max_locals=" ++
      Text.decimal method.maxLocals.toNat ++ " returns=" ++ Text.decimal method.returnCount) ::
    codeLines 0 (summary.code.getD [])

end MethodSummary

/-- The listing of a class. -/
def inspection (settings : Settings) (code : Bool) (format : ListingFormat) (file : ClassFile) :
    String :=
  let summaries := file.methods.map (MethodSummary.ofMethod settings code)
  match format with
  | .json => (Json.array (summaries.map MethodSummary.toJson)).indented ++ "\n"
  | .text =>
      String.join
        ((("class " ++ file.name) :: summaries.flatMap MethodSummary.toLines).map (· ++ "\n"))

end CommandLine
end MethodTracing
