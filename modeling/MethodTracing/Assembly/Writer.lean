import MethodTracing.Method

/-!
# Collecting classes

The last member of every chain collects the classes that are built through it.  At most one class
is open at a time; it is closed by an explicit call, by the next definition, or at the end.
-/

namespace MethodTracing
namespace Assembly

/-- The classes collected so far. -/
structure Writer where
  /-- Closed classes in the order in which they were opened. -/
  closed : List ClassFile
  /-- The open class. -/
  current : Option ClassFile
  deriving DecidableEq

namespace Writer

/-- A writer without classes. -/
def empty : Writer := ⟨[], none⟩

/-- All classes, the open one last. -/
def classes (writer : Writer) : List ClassFile :=
  writer.closed ++ writer.current.toList

/-- Close the open class. -/
def close (writer : Writer) : Writer :=
  ⟨writer.classes, none⟩

/-- Close the open class and open one of the given name. -/
def define (writer : Writer) (name : String) : Writer :=
  ⟨writer.classes, some ⟨name, []⟩⟩

/-- The class that receives methods: the open one, or a nameless one. -/
def receiving (writer : Writer) : ClassFile :=
  writer.current.getD ⟨"", []⟩

/-- Add methods to the open class, opening a nameless one if there is none. -/
def store (writer : Writer) (methods : List Method) : Writer :=
  let file := writer.receiving
  ⟨writer.closed, some { file with methods := file.methods ++ methods }⟩

end Writer
end Assembly
end MethodTracing
