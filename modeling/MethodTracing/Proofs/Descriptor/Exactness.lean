import Mathlib.Data.List.TakeWhile
import MethodTracing.Descriptor.Parser

/-!
# Exact descriptors

A descriptor is read exactly if it is the written form of a well-formed type, and then that type is
read.  So every well-formed type has one descriptor, and no two types share one.
-/

namespace MethodTracing

/-- Naming the text in an error leaves the answers without error alone. -/
theorem mapError_eq_ok_iff {α ε ε' : Type} {answer : Except ε α} {f : ε → ε'} {value : α} :
    answer.mapError f = .ok value ↔ answer = .ok value := by
  cases answer <;> simp [Except.mapError]

namespace FieldType

/-- The end of a class name can be found: a name is not empty and holds no semicolon. -/
def Named : FieldType → Prop
  | object className => className ≠ "" ∧ ';' ∉ className.toList
  | array element => element.Named
  | _ => True

/-- A type that has a descriptor. -/
structure WellFormed (type : FieldType) : Prop where
  /-- The ends of class names can be found. -/
  named : type.Named
  /-- There are not too many dimensions. -/
  dimensions_le : type.dimensions ≤ arrayDimensionLimit

/-! ## Arrays over their elements -/

@[simp]
theorem chars_arrayOf (dimensions : Nat) (element : FieldType) :
    (arrayOf dimensions element).chars = List.replicate dimensions '[' ++ element.chars := by
  induction dimensions with
  | zero => rfl
  | succ dimensions ih => simp [arrayOf, chars, ih, List.replicate_succ]

@[simp]
theorem dimensions_arrayOf (dimensions : Nat) (element : FieldType) :
    (arrayOf dimensions element).dimensions = dimensions + element.dimensions := by
  induction dimensions with
  | zero => simp [arrayOf]
  | succ dimensions ih => simp [arrayOf, FieldType.dimensions, ih, Nat.add_right_comm]

@[simp]
theorem named_arrayOf (dimensions : Nat) (element : FieldType) :
    (arrayOf dimensions element).Named ↔ element.Named := by
  induction dimensions with
  | zero => rfl
  | succ dimensions ih => simpa [arrayOf, Named] using ih

/-- Every type is an array type over an element that is none. -/
theorem exists_eq_arrayOf (type : FieldType) :
    ∃ element, element.dimensions = 0 ∧ type = arrayOf type.dimensions element := by
  induction type with
  | array inner ih =>
      obtain ⟨element, plain, inner_eq⟩ := ih
      exact ⟨element, plain, congrArg array inner_eq⟩
  | _ => exact ⟨_, rfl, rfl⟩

/-- The first character of a type tells it from the end of the parameters, from a missing result,
and from an array. -/
theorem exists_chars_eq_cons (type : FieldType) :
    ∃ tag tail, type.chars = tag :: tail ∧ tag ≠ ')' ∧ tag ≠ 'V' ∧
      (type.dimensions = 0 → tag ≠ '[') := by
  cases type with
  | array inner => exact ⟨_, _, rfl, by decide, by decide, by simp [dimensions]⟩
  | _ => exact ⟨_, _, rfl, by decide, by decide, fun _ => by decide⟩

/-! ## One type off the front of a text -/

theorem takeElement_chars {element : FieldType} (plain : element.dimensions = 0)
    (named : element.Named) (rest : List Char) :
    takeElement (element.chars ++ rest) = .ok (element, rest) := by
  cases element with
  | array inner => simp [dimensions] at plain
  | object className =>
      obtain ⟨inhabited, unbroken⟩ := named
      have inside : ∀ char ∈ className.toList, (char != ';') = true := by
        intro char member
        rw [bne_iff_ne]
        rintro rfl
        exact unbroken member
      have name_eq : (className.toList ++ ';' :: rest).takeWhile (· != ';') =
          className.toList := by
        rw [List.takeWhile_append_of_pos inside]
        simp
      have after_eq : (className.toList ++ ';' :: rest).dropWhile (· != ';') = ';' :: rest := by
        rw [List.dropWhile_append_of_pos inside]
        simp
      have chars_eq : (object className).chars ++ rest =
          'L' :: (className.toList ++ ';' :: rest) := by simp [chars]
      rw [chars_eq, takeElement]
      simp only [after_eq, name_eq]
      split
      · rename_i empty
        exact absurd (String.toList_eq_nil_iff.mp empty) inhabited
      · simp
  | _ => rfl

theorem of_takeElement {text rest : List Char} {element : FieldType}
    (taken : takeElement text = .ok (element, rest)) :
    element.dimensions = 0 ∧ element.Named ∧ text = element.chars ++ rest := by
  unfold takeElement at taken
  split at taken
  case h_10 name =>
    split at taken
    · simp at taken
    · rename_i end_char after dropped
      split at taken
      · simp at taken
      · rename_i inhabited
        obtain ⟨rfl, rfl⟩ : object (String.ofList (name.takeWhile (· != ';'))) = element ∧
            after = rest := by simpa using taken
        -- The text goes on with the first character that is no part of the name.
        have end_eq : end_char = ';' := by
          have stops := List.head?_dropWhile_not (· != ';') name
          simpa [dropped] using stops
        have split_eq := List.takeWhile_append_dropWhile (p := (· != ';')) (l := name)
        rw [dropped, end_eq] at split_eq
        refine ⟨rfl, ⟨?_, ?_⟩, ?_⟩
        · intro empty
          exact inhabited (String.ofList_eq_empty_iff.mp empty)
        · rw [String.toList_ofList]
          intro member
          simpa using List.mem_takeWhile_imp member
        · simp [chars, split_eq]
  case h_1 => simp at taken
  case h_11 => simp at taken
  all_goals
    obtain ⟨rfl, rfl⟩ := Prod.mk.inj (Except.ok.inj taken)
    exact ⟨rfl, trivial, rfl⟩

theorem takeType_chars {type : FieldType} (wellFormed : type.WellFormed) (rest : List Char) :
    takeType (type.chars ++ rest) = .ok (type, rest) := by
  obtain ⟨named, few⟩ := wellFormed
  obtain ⟨element, plain, type_eq⟩ := exists_eq_arrayOf type
  generalize type.dimensions = dimensions at type_eq few
  subst type_eq
  obtain ⟨tag, tail, chars_eq, -, -, no_bracket⟩ := element.exists_chars_eq_cons
  have brackets : ∀ char ∈ List.replicate dimensions '[', (char == '[') = true := by
    simp [List.mem_replicate]
  have counted : ((arrayOf dimensions element).chars ++ rest).takeWhile (· == '[') =
      List.replicate dimensions '[' := by
    rw [chars_arrayOf, List.append_assoc, List.takeWhile_append_of_pos brackets, chars_eq]
    simp [no_bracket plain]
  have left : ((arrayOf dimensions element).chars ++ rest).dropWhile (· == '[') =
      element.chars ++ rest := by
    rw [chars_arrayOf, List.append_assoc, List.dropWhile_append_of_pos brackets, chars_eq]
    simp [no_bracket plain]
  simp only [takeType, counted, left, List.length_replicate, if_neg (Nat.not_lt.mpr few),
    takeElement_chars plain ((named_arrayOf dimensions element).mp named) rest]

theorem of_takeType {text rest : List Char} {type : FieldType}
    (taken : takeType text = .ok (type, rest)) : type.WellFormed ∧ text = type.chars ++ rest := by
  simp only [takeType] at taken
  split at taken
  · simp at taken
  · rename_i few
    split at taken
    · simp at taken
    · rename_i element after element_taken
      obtain ⟨rfl, rfl⟩ := Prod.mk.inj (Except.ok.inj taken)
      obtain ⟨plain, named, after_eq⟩ := of_takeElement element_taken
      have brackets : text.takeWhile (· == '[') =
          List.replicate (text.takeWhile (· == '[')).length '[' :=
        List.eq_replicate_of_mem fun char member => by simpa using List.mem_takeWhile_imp member
      refine ⟨⟨(named_arrayOf _ element).mpr named, ?_⟩, ?_⟩
      · simpa [plain] using few
      · rw [chars_arrayOf, List.append_assoc, ← after_eq, ← brackets,
          List.takeWhile_append_dropWhile]

/-- A type is taken off the front of a text if the text begins with its written form. -/
theorem takeType_eq_ok_iff {text rest : List Char} {type : FieldType} :
    takeType text = .ok (type, rest) ↔ type.WellFormed ∧ text = type.chars ++ rest := by
  refine ⟨of_takeType, ?_⟩
  rintro ⟨wellFormed, rfl⟩
  exact takeType_chars wellFormed rest

theorem parseChars_eq_ok_iff {text : List Char} {type : FieldType} :
    parseChars text = .ok type ↔ type.WellFormed ∧ text = type.chars := by
  rw [parseChars]
  constructor
  · intro read
    split at read
    · simp at read
    · rename_i taken
      obtain rfl := Except.ok.inj read
      simpa using takeType_eq_ok_iff.mp taken
    · simp at read
  · intro written
    have taken : takeType text = .ok (type, []) :=
      takeType_eq_ok_iff.mpr (by simpa using written)
    rw [taken]

/-- Exactly the written forms of well-formed types are read. -/
theorem parse_eq_ok_iff {text : String} {type : FieldType} :
    parse text = .ok type ↔ type.WellFormed ∧ type.text = text := by
  rw [parse, mapError_eq_ok_iff, parseChars_eq_ok_iff, FieldType.text, ← String.toList_inj,
    String.toList_ofList, eq_comm (a := type.chars)]

end FieldType

namespace MethodType

/-- A type that has a descriptor. -/
structure WellFormed (type : MethodType) : Prop where
  /-- Every parameter has a descriptor. -/
  parameters : ∀ parameter ∈ type.parameters, parameter.WellFormed
  /-- The result has a descriptor if there is one. -/
  result : ∀ value ∈ type.result, value.WellFormed
  /-- The parameters do not take too many slots. -/
  width_le : type.parameterWidth ≤ parameterSlotLimit

/-! ## Parameters and results -/

/-- Where the parameters do not end, one type is taken and counted before the others. -/
theorem takeParameters_of_taken {slots : Nat} {text rest : List Char} {type : FieldType}
    (goes_on : text.head? ≠ some ')') (taken : FieldType.takeType text = .ok (type, rest)) :
    takeParameters slots text =
      if parameterSlotLimit < slots + type.width then .error .tooManySlots
      else
        match takeParameters (slots + type.width) rest with
        | .error fault => .error fault
        | .ok (types, after) => .ok (type :: types, after) := by
  cases text with
  | nil => simp [FieldType.takeType, FieldType.takeElement] at taken
  | cons tag tail =>
      have tag_ne : tag ≠ ')' := by simpa using goes_on
      rw [takeParameters, if_neg tag_ne]
      split
      · rename_i failed
        simp [failed] at taken
      · rename_i taken_again
        obtain ⟨rfl, rfl⟩ := Prod.mk.inj (Except.ok.inj (taken_again.symm.trans taken))
        rfl

theorem takeParameters_chars {slots : Nat} {types : List FieldType}
    (wellFormed : ∀ type ∈ types, type.WellFormed)
    (width_le : slots + totalWidth types ≤ parameterSlotLimit) (rest : List Char) :
    takeParameters slots (types.flatMap FieldType.chars ++ ')' :: rest) = .ok (types, rest) := by
  induction types generalizing slots with
  | nil => simp [takeParameters]
  | cons type types ih =>
      obtain ⟨type_wellFormed, types_wellFormed⟩ := List.forall_mem_cons.mp wellFormed
      rw [totalWidth] at width_le
      have taken : FieldType.takeType ((type :: types).flatMap FieldType.chars ++ ')' :: rest) =
          .ok (type, types.flatMap FieldType.chars ++ ')' :: rest) :=
        FieldType.takeType_eq_ok_iff.mpr ⟨type_wellFormed, by simp⟩
      have goes_on : ((type :: types).flatMap FieldType.chars ++ ')' :: rest).head? ≠ some ')' := by
        obtain ⟨tag, tail, chars_eq, tag_ne, -⟩ := type.exists_chars_eq_cons
        simpa [chars_eq] using tag_ne
      rw [takeParameters_of_taken goes_on taken, if_neg (by omega),
        ih types_wellFormed (by omega)]

/-- Parameters are read if they are written one after another up to a closing parenthesis. -/
theorem takeParameters_eq_ok_iff {slots : Nat} (within : slots ≤ parameterSlotLimit)
    {text rest : List Char} {types : List FieldType} :
    takeParameters slots text = .ok (types, rest) ↔
      (∀ type ∈ types, type.WellFormed) ∧ slots + totalWidth types ≤ parameterSlotLimit ∧
        text = types.flatMap FieldType.chars ++ ')' :: rest := by
  constructor
  · intro taken
    fun_induction takeParameters slots text generalizing types rest with
    | case1 => simp at taken
    | case2 slots tail =>
        obtain ⟨rfl, rfl⟩ := Prod.mk.inj (Except.ok.inj taken)
        exact ⟨by simp, within, rfl⟩
    | case3 => simp at taken
    | case4 => simp at taken
    | case5 => simp at taken
    | case6 slots tag tail tag_ne type left type_taken _ within_type others after others_taken ih =>
        obtain ⟨rfl, rfl⟩ := Prod.mk.inj (Except.ok.inj taken)
        obtain ⟨wellFormed, width_le, left_eq⟩ := ih (Nat.not_lt.mp within_type) others_taken
        obtain ⟨type_wellFormed, text_eq⟩ := FieldType.takeType_eq_ok_iff.mp type_taken
        refine ⟨List.forall_mem_cons.mpr ⟨type_wellFormed, wellFormed⟩, ?_, ?_⟩
        · rw [totalWidth, ← Nat.add_assoc]
          exact width_le
        · rw [text_eq, left_eq, List.flatMap_cons, List.append_assoc]
  · rintro ⟨wellFormed, width_le, rfl⟩
    exact takeParameters_chars wellFormed width_le rest

theorem parseResult_eq_ok_iff {text : List Char} {result : Option FieldType} :
    parseResult text = .ok result ↔
      (∀ value ∈ result, value.WellFormed) ∧ text = resultChars result := by
  rw [parseResult]
  split
  · rename_i missing
    cases result with
    | none => simp [missing, resultChars]
    | some type =>
        -- No type is written as a missing result.
        obtain ⟨tag, tail, chars_eq, -, tag_ne, -⟩ := type.exists_chars_eq_cons
        simp [missing, resultChars, chars_eq, tag_ne.symm]
  · rename_i present
    cases result with
    | none => cases FieldType.parseChars text <;> simp [Except.map, resultChars, present]
    | some type =>
        have read_iff : (FieldType.parseChars text).map some = .ok (some type) ↔
            FieldType.parseChars text = .ok type := by
          cases FieldType.parseChars text <;> simp [Except.map]
        simp [read_iff, FieldType.parseChars_eq_ok_iff, resultChars]

/-! ## Whole descriptors -/

theorem parseChars_eq_ok_iff {text : List Char} {type : MethodType} :
    parseChars text = .ok type ↔ type.WellFormed ∧ text = type.chars := by
  constructor
  · intro read
    unfold parseChars at read
    split at read
    · split at read
      · simp at read
      · rename_i parameters after parameters_taken
        split at read
        · simp at read
        · rename_i result result_read
          obtain rfl := Except.ok.inj read
          obtain ⟨parameters_wellFormed, width_le, rfl⟩ :=
            (takeParameters_eq_ok_iff (Nat.zero_le _)).mp parameters_taken
          obtain ⟨result_wellFormed, rfl⟩ := parseResult_eq_ok_iff.mp result_read
          rw [Nat.zero_add] at width_le
          exact ⟨⟨parameters_wellFormed, result_wellFormed, width_le⟩, rfl⟩
    · simp at read
  · rintro ⟨wellFormed, rfl⟩
    have width_le : 0 + totalWidth type.parameters ≤ parameterSlotLimit := by
      rw [Nat.zero_add]
      exact wellFormed.width_le
    have parameters_taken :=
      takeParameters_chars wellFormed.parameters width_le (resultChars type.result)
    have result_read := parseResult_eq_ok_iff.mpr ⟨wellFormed.result, rfl⟩
    simp only [chars, List.cons_append, parseChars, parameters_taken, result_read]

/-- Exactly the written forms of well-formed types are read. -/
theorem parse_eq_ok_iff {text : String} {type : MethodType} :
    parse text = .ok type ↔ type.WellFormed ∧ type.text = text := by
  rw [parse, mapError_eq_ok_iff, parseChars_eq_ok_iff, MethodType.text, ← String.toList_inj,
    String.toList_ofList, eq_comm (a := type.chars)]

end MethodType

/-! ## Descriptors and types in bijection -/

section Bijection

variable {α : Type} {read : String → Except DescriptorError α} {write : α → String}
  {wellFormed : α → Prop}

/-- Reading accepts the written forms of well-formed values and nothing else. -/
def ReadsExactly (read : String → Except DescriptorError α) (write : α → String)
    (wellFormed : α → Prop) : Prop :=
  (∀ text value, read text = .ok value ↔ wellFormed value ∧ write value = text) ∧
  (∀ text, (∃ error, read text = .error error) ↔
    ∀ value, wellFormed value → write value ≠ text) ∧
  ∀ value, read (write value) = .ok value ↔ wellFormed value

theorem readsExactly_of_eq_ok_iff
    (exact_iff : ∀ text value, read text = .ok value ↔ wellFormed value ∧ write value = text) :
    ReadsExactly read write wellFormed := by
  refine ⟨exact_iff, fun text => ?_, fun value => by simp [exact_iff]⟩
  constructor
  · rintro ⟨error, refused⟩ value well_formed written
    rw [(exact_iff text value).mpr ⟨well_formed, written⟩] at refused
    simp at refused
  · intro unwritten
    cases answer : read text with
    | error error => exact ⟨error, rfl⟩
    | ok value =>
        obtain ⟨well_formed, written⟩ := (exact_iff text value).mp answer
        exact absurd written (unwritten value well_formed)

end Bijection

/-- Descriptors and well-formed types are in bijection, for fields and for methods. -/
theorem descriptor_readsExactly :
    ReadsExactly FieldType.parse FieldType.text FieldType.WellFormed ∧
      ReadsExactly MethodType.parse MethodType.text MethodType.WellFormed :=
  ⟨readsExactly_of_eq_ok_iff fun _ _ => FieldType.parse_eq_ok_iff,
    readsExactly_of_eq_ok_iff fun _ _ => MethodType.parse_eq_ok_iff⟩

/-- The written form of a type that is not well-formed may be that of another type. -/
example : MethodType.parse (MethodType.text ⟨[.object "A;LB"], none⟩) =
    .ok ⟨[.object "A", .object "B"], none⟩ := by cbv

end MethodTracing
