import MethodTracing.Trace.Sequence

/-!
# Injected sequences

The two sequences that tracing inserts into a body.  The entry sequence prints a line and stores
the time; the exit sequence computes the time since then, stores it, and prints a line with it.
-/

namespace MethodTracing
namespace Trace

/-- The class of the console and of the time. -/
def systemClass : String := "java/lang/System"

/-- The class of printing streams. -/
def printStreamClass : String := "java/io/PrintStream"

/-- The class of texts. -/
def stringClass : String := "java/lang/String"

/-- The class of text builders. -/
def stringBuilderClass : String := "java/lang/StringBuilder"

/-- The console. -/
def console : FieldRef := ⟨systemClass, "out", .object printStreamClass⟩

/-- Prints a text as a line. -/
def println : MethodRef := ⟨printStreamClass, "println", ⟨[.object stringClass], none⟩⟩

/-- Reads the time in milliseconds. -/
def currentTimeMillis : MethodRef := ⟨systemClass, "currentTimeMillis", ⟨[], some .long⟩⟩

/-- Initializes a text builder. -/
def builderInit : MethodRef := ⟨stringBuilderClass, "<init>", ⟨[], none⟩⟩

/-- Appends a value of the given type to a text builder. -/
def builderAppend (argument : FieldType) : MethodRef :=
  ⟨stringBuilderClass, "append", ⟨[argument], some (.object stringBuilderClass)⟩⟩

/-- The text of a text builder. -/
def builderText : MethodRef :=
  ⟨stringBuilderClass, "toString", ⟨[], some (.object stringClass)⟩⟩

/-- The line printed on entry. -/
def entryLine (name : String) : String := "-> " ++ name ++ " start"

/-- What the line printed on exit says before the time. -/
def exitLineHead (name : String) : String := "<- " ++ name ++ " end cost "

/-- What the line printed on exit says after the time. -/
def exitLineTail : String := " ms"

/-- The instructions inserted before a body. -/
def entryCode (name : String) (startSlot : UInt16) : List Instruction :=
  [.getStatic console,
    .ldc (entryLine name),
    .invoke .virtual println,
    .invoke .direct currentTimeMillis,
    .store .long startSlot]

/-- The instructions inserted before a return. -/
def exitCode (name : String) (startSlot endSlot : UInt16) : List Instruction :=
  [.invoke .direct currentTimeMillis,
    .load .long startSlot,
    .longArithmetic .sub,
    .store .long endSlot,
    .getStatic console,
    .new stringBuilderClass,
    .dup,
    .invoke .special builderInit,
    .ldc (exitLineHead name),
    .invoke .virtual (builderAppend (.object stringClass)),
    .load .long endSlot,
    .invoke .virtual (builderAppend .long),
    .ldc exitLineTail,
    .invoke .virtual (builderAppend (.object stringClass)),
    .invoke .virtual builderText,
    .invoke .virtual println]

/-- The sequence inserted before a body. -/
def entrySequence (name : String) (startSlot : UInt16) : Sequence :=
  .ofList (entryCode name startSlot)

/-- The sequence inserted before a return. -/
def exitSequence (name : String) (startSlot endSlot : UInt16) : Sequence :=
  .ofList (exitCode name startSlot endSlot)

end Trace
end MethodTracing
