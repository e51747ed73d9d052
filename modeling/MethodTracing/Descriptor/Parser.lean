import MethodTracing.Descriptor.Basic
import MethodTracing.Text.Quoted

/-!
# Reading descriptors

Descriptors are read from left to right.  A reader takes one type off the front of the text and
returns the rest; the rest is always shorter, so a parameter list is read by recursion on it.
-/

namespace MethodTracing

/-- Why a text is no descriptor. -/
inductive DescriptorFault
  | tooManyDimensions
  | endOfText
  | unterminatedClass
  | emptyClassName
  | unknownTag
  | trailingCharacters
  | missingParenthesis
  | unterminatedParameters
  | tooManySlots
  deriving DecidableEq

/-- The wording of each fault. -/
def DescriptorFault.reason : DescriptorFault → String
  | .tooManyDimensions => "too many array dimensions"
  | .endOfText => "unexpected end of descriptor"
  | .unterminatedClass => "unterminated class type"
  | .emptyClassName => "empty class name"
  | .unknownTag => "unknown type tag"
  | .trailingCharacters => "trailing characters"
  | .missingParenthesis => "method descriptor must start with '('"
  | .unterminatedParameters => "unterminated parameter list"
  | .tooManySlots => "too many parameter slots"

/-- A text that was refused as a descriptor. -/
structure DescriptorError where
  /-- The whole refused text. -/
  text : String
  /-- What is wrong with it. -/
  fault : DescriptorFault
  deriving DecidableEq

/-- The message for a refused descriptor. -/
def DescriptorError.message (error : DescriptorError) : String :=
  "invalid descriptor " ++ Text.quote error.text ++ ": " ++ error.fault.reason

namespace FieldType

/-- Take a type without array dimensions off the front of a text. -/
def takeElement : List Char → Except DescriptorFault (FieldType × List Char)
  | [] => .error .endOfText
  | 'Z' :: rest => .ok (boolean, rest)
  | 'B' :: rest => .ok (byte, rest)
  | 'C' :: rest => .ok (char, rest)
  | 'S' :: rest => .ok (short, rest)
  | 'I' :: rest => .ok (int, rest)
  | 'J' :: rest => .ok (long, rest)
  | 'F' :: rest => .ok (float, rest)
  | 'D' :: rest => .ok (double, rest)
  | 'L' :: rest =>
      match rest.dropWhile (· != ';') with
      | [] => .error .unterminatedClass
      | _ :: after =>
          match rest.takeWhile (· != ';') with
          | [] => .error .emptyClassName
          | className => .ok (object (String.ofList className), after)
  | _ :: _ => .error .unknownTag

/-- Take a type off the front of a text.  The dimensions are counted before the element is read. -/
def takeType (chars : List Char) : Except DescriptorFault (FieldType × List Char) :=
  let dimensions := (chars.takeWhile (· == '[')).length
  if arrayDimensionLimit < dimensions then .error .tooManyDimensions
  else
    match takeElement (chars.dropWhile (· == '[')) with
    | .error fault => .error fault
    | .ok (element, rest) => .ok (arrayOf dimensions element, rest)

theorem length_lt_of_takeElement {chars rest : List Char} {type : FieldType}
    (taken : takeElement chars = .ok (type, rest)) : rest.length < chars.length := by
  unfold takeElement at taken
  split at taken <;> try (injection taken with pair; injection pair with _ rest_eq; simp [← rest_eq])
  · simp at taken
  · rename_i body
    split at taken
    · simp at taken
    · rename_i semicolon after dropped
      split at taken
      · simp at taken
      · injection taken with pair
        injection pair with _ rest_eq
        subst rest_eq
        have shorter := (List.dropWhile_suffix (l := body) (· != ';')).length_le
        rw [dropped] at shorter
        simp only [List.length_cons] at shorter ⊢
        omega
  · simp at taken

theorem length_lt_of_takeType {chars rest : List Char} {type : FieldType}
    (taken : takeType chars = .ok (type, rest)) : rest.length < chars.length := by
  simp only [takeType] at taken
  split at taken
  · simp at taken
  · split at taken
    · simp at taken
    · rename_i element after element_taken
      injection taken with pair
      injection pair with _ rest_eq
      subst rest_eq
      exact Nat.lt_of_lt_of_le (length_lt_of_takeElement element_taken)
        (List.dropWhile_suffix (· == '[')).length_le

/-- Read a text that is one type and nothing else. -/
def parseChars (chars : List Char) : Except DescriptorFault FieldType :=
  match takeType chars with
  | .error fault => .error fault
  | .ok (type, []) => .ok type
  | .ok (_, _ :: _) => .error .trailingCharacters

/-- Read a field descriptor. -/
def parse (text : String) : Except DescriptorError FieldType :=
  (parseChars text.toList).mapError fun fault => ⟨text, fault⟩

end FieldType

namespace MethodType

/-- Take parameters up to the closing parenthesis, where `slots` slots are taken already. -/
def takeParameters (slots : Nat) (chars : List Char) :
    Except DescriptorFault (List FieldType × List Char) :=
  match chars with
  | [] => .error .unterminatedParameters
  | char :: tail =>
      if char = ')' then .ok ([], tail)
      else
        match taken : FieldType.takeType (char :: tail) with
        | .error fault => .error fault
        | .ok (type, rest) =>
            have := FieldType.length_lt_of_takeType taken
            if parameterSlotLimit < slots + type.width then .error .tooManySlots
            else
              match takeParameters (slots + type.width) rest with
              | .error fault => .error fault
              | .ok (types, after) => .ok (type :: types, after)
  termination_by chars.length
  decreasing_by assumption

/-- Read the result of a method: `V` alone, or one type and nothing else. -/
def parseResult (chars : List Char) : Except DescriptorFault (Option FieldType) :=
  if chars = ['V'] then .ok none
  else (FieldType.parseChars chars).map some

/-- Read a method descriptor, as characters. -/
def parseChars : List Char → Except DescriptorFault MethodType
  | '(' :: rest =>
      match takeParameters 0 rest with
      | .error fault => .error fault
      | .ok (parameters, after) =>
          match parseResult after with
          | .error fault => .error fault
          | .ok result => .ok ⟨parameters, result⟩
  | _ => .error .missingParenthesis

/-- Read a method descriptor. -/
def parse (text : String) : Except DescriptorError MethodType :=
  (parseChars text.toList).mapError fun fault => ⟨text, fault⟩

end MethodType
end MethodTracing
