import MethodTracing.Text.Blank

/-!
# Annotations

Names of annotations and the ordered sets that methods carry.  A name may be written with dots,
with slashes, or wrapped as `L…;`; sets and comparisons work on the dotted form.
-/

namespace MethodTracing

/-- The annotation that marks every woven method. -/
def tracedTag : String := "tejer.Traced"

/-- Remove one wrapper `L…;` if there is one. -/
def unwrapName : List Char → List Char
  | 'L' :: rest => if rest.getLast? = some ';' then rest.dropLast else 'L' :: rest
  | chars => chars

/-- Write dots for slashes. -/
def dotted (name : String) : String :=
  String.ofList (name.toList.map fun char => if char = '/' then '.' else char)

/-- The dotted form of a name: blanks around it and one wrapper are removed, slashes become dots. -/
def normalizeName (name : String) : String :=
  dotted (String.ofList (unwrapName (Text.trimChars name.toList)))

/-- The annotations of a method: distinct names in order of first insertion. -/
structure AnnotationSet where
  /-- The names, in dotted form. -/
  names : List String
  deriving DecidableEq

namespace AnnotationSet

/-- The set without names. -/
def empty : AnnotationSet := ⟨[]⟩

/-- Whether the set holds the dotted form of a name. -/
def contains (annotations : AnnotationSet) (name : String) : Bool :=
  annotations.names.contains (normalizeName name)

/-- Add the dotted form of a name at the end, unless the set holds it already. -/
def insert (annotations : AnnotationSet) (name : String) : AnnotationSet :=
  if annotations.contains name then annotations
  else ⟨annotations.names ++ [normalizeName name]⟩

/-- Insert names one after another into an empty set. -/
def ofList (names : List String) : AnnotationSet :=
  names.foldl insert empty

end AnnotationSet
end MethodTracing
