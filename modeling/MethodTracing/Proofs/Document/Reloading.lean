import MethodTracing.Document.Reader
import MethodTracing.Document.Writer
import MethodTracing.Proofs.Annotation.Names
import MethodTracing.Proofs.Descriptor.Exactness
import MethodTracing.Proofs.Json.Indented

/-!
# Reloading classes

A class is read back from its document if its methods are its own, their descriptors can be read,
and their annotations are distinct names in dotted form.
-/

namespace MethodTracing

/-! ## What a document can hold -/

/-- Every descriptor in an instruction can be read from some text. -/
def Instruction.Typed : Instruction → Prop
  | getStatic field => ∃ text, FieldType.parse text = .ok field.type
  | invoke _ method => ∃ text, MethodType.parse text = .ok method.type
  | _ => True

/-- A method of a class of the given name that a document can hold. -/
structure Method.Storable (owner : String) (method : Method) : Prop where
  /-- The class is the owner of the method. -/
  owner_eq : method.declaration.owner = owner
  /-- The type of the method can be read from some text, if it is known. -/
  typed : ∀ type ∈ method.declaration.type, ∃ text, MethodType.parse text = .ok type
  /-- So can the types in its instructions. -/
  instructions_typed : ∀ instruction ∈ method.instructions, instruction.Typed
  /-- No annotation comes twice. -/
  names_distinct : method.declaration.annotations.names.Nodup
  /-- The names of annotations are in dotted form. -/
  names_normal : ∀ name ∈ method.declaration.annotations.names, normalizeName name = name

namespace Document

/-! ## Members and items -/

/-- What is read from every value that was written is read from all of them. -/
theorem mapM_map_eq_some {α β γ : Type} {read : β → Option γ} {write : α → β} {result : α → γ}
    {values : List α} (reads : ∀ value ∈ values, read (write value) = some (result value)) :
    (values.map write).mapM read = some (values.map result) := by
  induction values with
  | nil => rfl
  | cons value others ih =>
      obtain ⟨value_reads, others_read⟩ := List.forall_mem_cons.mp reads
      simp [value_reads, ih others_read]

/-- Values that are written one by one are read back one by one. -/
theorem mapM_write_eq_some {α β : Type} {read : β → Option α} {write : α → β} {values : List α}
    (reads : ∀ value ∈ values, read (write value) = some value) :
    (values.map write).mapM read = some values := by
  rw [mapM_map_eq_some reads, List.map_id']

section Members

variable {members : List (String × Json)} {name : String} {value : Json}

theorem filter_eq_nil_of_not_mem (absent : name ∉ members.map Prod.fst) :
    members.filter (fun member => member.1 == name) = [] := by
  refine List.filter_eq_nil_iff.mpr fun member member_mem same => absent ?_
  exact List.mem_map.mpr ⟨member, member_mem, by simpa using same⟩

theorem filter_eq_singleton (distinct : (members.map Prod.fst).Nodup)
    (member : (name, value) ∈ members) :
    members.filter (fun member => member.1 == name) = [(name, value)] := by
  induction members with
  | nil => simp at member
  | cons first others ih =>
      obtain ⟨fresh, others_distinct⟩ := List.nodup_cons.mp distinct
      rcases List.mem_cons.mp member with rfl | later
      · simp [filter_eq_nil_of_not_mem fresh]
      · have first_ne : first.1 ≠ name := by
          rintro rfl
          exact fresh (List.mem_map.mpr ⟨_, later, rfl⟩)
        simp [first_ne, ih others_distinct later]

theorem member?_of_mem (distinct : (members.map Prod.fst).Nodup)
    (member : (name, value) ∈ members) : member? members name = some (some value) := by
  rw [member?, filter_eq_singleton distinct member]

theorem member?_of_not_mem (absent : name ∉ members.map Prod.fst) :
    member? members name = some none := by
  rw [member?, filter_eq_nil_of_not_mem absent]

theorem namedMembers?_record (members : List (String × Json)) :
    namedMembers? (members.map fun (name, value) => (some name, value)) = some members :=
  mapM_write_eq_some fun _ _ => rfl

/-- The fields of a record that has all of them are the values of its members. -/
theorem fields?_record (distinct : (members.map Prod.fst).Nodup) :
    fields? (members.map Prod.fst) (.record members) = some (members.map (some ·.2)) := by
  simp only [fields?, Json.record, namedMembers?_record, Option.bind_eq_bind, Option.bind_some]
  exact mapM_map_eq_some fun member member_mem => member?_of_mem distinct member_mem

end Members

/-! ## Parts of instructions -/

@[simp]
theorem text?_text (content : String) : (Json.text content).text? = some content := rfl

theorem int?_int {low high value : Int} (above : low ≤ value) (below : value ≤ high) :
    (Json.int value).int? low high = some value := by
  simp [Json.int, Json.int?, JsonNumber.toInt?_ofInt, above, below]

theorem uint16?_int (value : UInt16) : uint16? (.int value.toNat) = some value := by
  have small := value.toNat_lt
  rw [uint16?, int?_int (by omega) (by omega)]
  simp

theorem label?_toJson (label : Label) : label? label.toJson = some label := by
  have small := label.number.toNat_lt
  rw [label?, Label.toJson, int?_int (by omega) (by omega)]
  simp

theorem fieldType?_text {type : FieldType} (wellFormed : type.WellFormed) :
    fieldType? (.text type.text) = some type := by
  simp [fieldType?, Json.text, Json.text?, FieldType.parse_eq_ok_iff.mpr ⟨wellFormed, rfl⟩,
    Except.toOption]

theorem methodType?_text {type : MethodType} (wellFormed : type.WellFormed) :
    methodType? (.text type.text) = some type := by
  simp [methodType?, Json.text, Json.text?, MethodType.parse_eq_ok_iff.mpr ⟨wellFormed, rfl⟩,
    Except.toOption]

theorem fieldRef?_toJson {field : FieldRef} (wellFormed : field.type.WellFormed) :
    fieldRef? field.toJson = some field := by
  have fields_eq : fields? ["owner", "name", "descriptor"] field.toJson = _ :=
    fields?_record (by simp)
  simp [fieldRef?, fields_eq, fieldType?_text wellFormed]

theorem methodRef?_toJson {method : MethodRef} (wellFormed : method.type.WellFormed) :
    methodRef? method.toJson = some method := by
  have fields_eq : fields? ["owner", "name", "descriptor"] method.toJson = _ :=
    fields?_record (by simp)
  simp [methodRef?, fields_eq, methodType?_text wellFormed]

theorem branch?_toJson (condition : Condition) (target : Label) :
    branch? (branchToJson condition target) = some (condition, target) := by
  have fields_eq : fields? ["cond", "target"] (branchToJson condition target) = _ :=
    fields?_record (by simp)
  have condition_read : condition? (.text condition.name) = some condition := by
    cases condition <;> rfl
  simp [branch?, fields_eq, condition_read, label?_toJson]

theorem increment?_record (slot : UInt16) (delta : Int16) :
    increment? (.record [("slot", .int slot.toNat), ("delta", .int delta.toInt)]) =
      some (.iinc slot delta) := by
  have fields_eq : fields? ["slot", "delta"]
      (.record [("slot", .int slot.toNat), ("delta", .int delta.toInt)]) = _ :=
    fields?_record (by simp)
  have above := delta.minValue_le_toInt
  have below := delta.toInt_lt
  have delta_read : (Json.int delta.toInt).int? (-32768) 32767 = some delta.toInt :=
    int?_int above (by omega)
  simp [increment?, fields_eq, uint16?_int, delta_read]

/-! ## Instructions -/

theorem instruction?_of_body {instruction : Instruction} {body : Json}
    (has_body : instruction.bodyToJson = some body) (filled : isNull body = false) :
    instruction? instruction.toJson = bodied? instruction.tag body := by
  simp [instruction?, Instruction.toJson, has_body, Json.record, choice?, filled]

/-- An instruction is read back from its document. -/
theorem instruction?_toJson {instruction : Instruction} (typed : instruction.Typed) :
    instruction? instruction.toJson = some instruction := by
  cases instruction with
  | label target =>
      rw [instruction?_of_body rfl rfl]
      simp [bodied?, Instruction.tag, label?_toJson]
  | nop => rfl
  | iconst value =>
      rw [instruction?_of_body rfl rfl]
      have above := value.minValue_le_toInt
      have below := value.toInt_lt
      have value_read : (Json.int value.toInt).int? (-2147483648) 2147483647 = some value.toInt :=
        int?_int above (by omega)
      simp [bodied?, Instruction.tag, value_read]
  | lconst value =>
      rw [instruction?_of_body rfl rfl]
      have above := value.minValue_le_toInt
      have below := value.toInt_lt
      have value_read : (Json.int value.toInt).int? (-9223372036854775808) 9223372036854775807 =
          some value.toInt := int?_int above (by omega)
      simp [bodied?, Instruction.tag, value_read]
  | ldc content =>
      rw [instruction?_of_body rfl rfl]
      simp [bodied?, Instruction.tag]
  | load kind slot =>
      rw [instruction?_of_body rfl rfl]
      cases kind <;> simp [bodied?, Instruction.tag, ValueKind.letter, uint16?_int]
  | store kind slot =>
      rw [instruction?_of_body rfl rfl]
      cases kind <;> simp [bodied?, Instruction.tag, ValueKind.letter, uint16?_int]
  | iinc slot delta =>
      rw [instruction?_of_body rfl rfl]
      exact increment?_record slot delta
  | intArithmetic op => cases op <;> rfl
  | longArithmetic op => cases op <;> rfl
  | dup => rfl
  | pop => rfl
  | pop2 => rfl
  | swap => rfl
  | branchZero condition target =>
      rw [instruction?_of_body rfl rfl]
      simp [bodied?, Instruction.tag, branch?_toJson]
  | branchCompare condition target =>
      rw [instruction?_of_body rfl rfl]
      simp [bodied?, Instruction.tag, branch?_toJson]
  | goto target =>
      rw [instruction?_of_body rfl rfl]
      simp [bodied?, Instruction.tag, label?_toJson]
  | getStatic field =>
      obtain ⟨text, read⟩ := typed
      rw [instruction?_of_body rfl rfl]
      simp [bodied?, Instruction.tag, fieldRef?_toJson (FieldType.parse_eq_ok_iff.mp read).1]
  | new className =>
      rw [instruction?_of_body rfl rfl]
      simp [bodied?, Instruction.tag]
  | invoke call method =>
      obtain ⟨text, read⟩ := typed
      have method_read := methodRef?_toJson (MethodType.parse_eq_ok_iff.mp read).1
      rw [instruction?_of_body rfl rfl]
      cases call <;> simp [bodied?, Instruction.tag, CallKind.tag, method_read]
  | ret kind =>
      cases kind with
      | none => rfl
      | some kind => cases kind <;> rfl
  | athrow => rfl

/-! ## Held members -/

/-- Whole numbers of a word are held. -/
theorem takeWord_of_le {digits : List Char} {word taken : Nat}
    (fits : digits.foldl (fun value digit => value * 10 + (digit.toNat - '0'.toNat)) word ≤
      JsonNumber.wordLimit) :
    JsonNumber.takeWord word taken digits =
      (digits.foldl (fun value digit => value * 10 + (digit.toNat - '0'.toNat)) word,
        taken + digits.length, []) := by
  induction digits generalizing word taken with
  | nil => rfl
  | cons digit rest ih =>
      have grows (value : Nat) (digits : List Char) : value ≤
          digits.foldl (fun value digit => value * 10 + (digit.toNat - '0'.toNat)) value := by
        induction digits generalizing value with
        | nil => exact Nat.le_refl _
        | cons digit rest ih => exact Nat.le_trans (by simp only; omega) (ih _)
      rw [List.foldl_cons] at fits ⊢
      have more_fits := Nat.le_trans (grows _ rest) fits
      simp only [JsonNumber.takeWord]
      rw [if_neg (Nat.not_lt.mpr more_fits), ih fits, List.length_cons]
      simp only [Nat.add_assoc, Nat.add_comm 1]

theorem roundSignificand_of_lt {value : Nat} (small : value < 65536) :
    JsonNumber.roundSignificand value = value := by
  have few_bits : value.log2 + 1 - 53 = 0 := by
    by_cases zero : value = 0
    · simp [zero]
    · have := (Nat.log2_lt zero).mpr (show value < 2 ^ 16 from small)
      omega
  simp [JsonNumber.roundSignificand, few_bits]

/-- A number of 16 bits can be held. -/
theorem isHoldable_int {value : Nat} (small : value < 65536) (room : Nat) :
    (Json.int value).isHoldable room = true := by
  have number_eq : JsonNumber.ofInt value = ⟨false, Nat.toDigits 10 value, [], none⟩ := by
    simp [JsonNumber.ofInt]
  have taken : JsonNumber.takeWord 0 0 (Nat.toDigits 10 value) =
      (value, (Nat.toDigits 10 value).length, []) := by
    have value_eq := JsonNumber.ofDigits_toDigits value
    rw [JsonNumber.ofDigits] at value_eq
    rw [takeWord_of_le (by rw [value_eq, JsonNumber.wordLimit]; omega), value_eq, Nat.zero_add]
  have below : value < JsonNumber.floatCeiling := Nat.lt_trans small (by decide +kernel)
  simp [Json.int, Json.isHoldable, JsonNumber.isFinite, number_eq, taken, JsonNumber.takeWord,
    roundSignificand_of_lt small, roundSignificand_of_lt (show 1 < 65536 by decide), below]

@[simp]
theorem isHoldable_text (room : Nat) (content : String) :
    (Json.text content).isHoldable room = true := rfl

theorem isHoldable_texts {room : Nat} (roomy : 0 < room) (contents : List String) :
    (Json.texts contents).isHoldable room = true := by
  have items_holdable (room : Nat) : Json.itemsHoldable room (contents.map Json.text) = true := by
    induction contents with
    | nil => rfl
    | cons content others ih => simp [Json.itemsHoldable, ih]
  simp [Json.texts, Json.isHoldable, roomy, items_holdable]

/-- The members of a declaration are small enough to be held until its method is read. -/
theorem isHoldable_toMembers (declaration : Declaration) {room : Nat} (roomy : 0 < room) :
    ∀ member ∈ declaration.toMembers, member.2.isHoldable room = true := by
  have type_holdable : (Json.ofOption
      (declaration.type.map fun type => .text type.text)).isHoldable room = true := by
    cases declaration.type <;> rfl
  have owner_holdable : ∀ member ∈ (if declaration.owner.isEmpty then []
      else [("owner", Json.text declaration.owner)]), member.2.isHoldable room = true := by
    split <;> simp
  rw [Declaration.toMembers]
  refine List.forall_mem_append.mpr ⟨owner_holdable, ?_⟩
  simp [type_holdable, isHoldable_int declaration.access.bits.toNat_lt, isHoldable_texts roomy]

/-! ## Methods -/

variable {owner : String} {method : Method}

/-- The members of a method. -/
def methodMembers (method : Method) : List (String × Json) :=
  method.declaration.toMembers ++
    [("instructions", Json.array (method.instructions.map Instruction.toJson)),
      ("max_stack", Json.int method.maxStack.toNat),
      ("max_locals", Json.int method.maxLocals.toNat)]

/-- The fields of a declaration in a document. -/
def storedFields (declaration : Declaration) : List (Option Json) :=
  [if declaration.owner.isEmpty then none else some (.text declaration.owner),
    some (.text declaration.name),
    some (.ofOption (declaration.type.map fun type => .text type.text)),
    some (.int declaration.access.bits.toNat),
    some (.text declaration.kind.tag),
    some (.texts declaration.annotations.names)]

theorem methodMembers_distinct (method : Method) :
    ((methodMembers method).map Prod.fst).Nodup := by
  simp only [methodMembers, Declaration.toMembers]
  split <;> simp

theorem member?_methodMembers (name : String) (value : Json)
    (member : (name, value) ∈ methodMembers method) :
    member? (methodMembers method) name = some (some value) :=
  member?_of_mem (methodMembers_distinct method) member

/-- The fields of a declaration are found among the members of its method. -/
theorem mapM_declarationNames (method : Method) :
    declarationNames.mapM (member? (methodMembers method)) =
      some (storedFields method.declaration) := by
  have owner_found : member? (methodMembers method) "owner" = some
      (if method.declaration.owner.isEmpty then none
        else some (.text method.declaration.owner)) := by
    split
    · rename_i unknown
      exact member?_of_not_mem (by simp [methodMembers, Declaration.toMembers, unknown])
    · rename_i known
      exact member?_methodMembers _ _ (by simp [methodMembers, Declaration.toMembers, known])
  simp only [declarationNames, List.mapM_cons, List.mapM_nil, owner_found]
  rw [member?_methodMembers "name" (.text method.declaration.name),
    member?_methodMembers "descriptor"
      (.ofOption (method.declaration.type.map fun type => .text type.text)),
    member?_methodMembers "access" (.int method.declaration.access.bits.toNat),
    member?_methodMembers "kind" (.text method.declaration.kind.tag),
    member?_methodMembers "annotations" (.texts method.declaration.annotations.names)]
  · rfl
  all_goals simp [methodMembers, Declaration.toMembers]

/-- So are the fields of its body. -/
theorem mapM_bodyNames (method : Method) :
    bodyNames.mapM (member? (methodMembers method)) = some
      [some (.array (method.instructions.map Instruction.toJson)),
        some (.int method.maxStack.toNat), some (.int method.maxLocals.toNat)] := by
  simp only [bodyNames, List.mapM_cons, List.mapM_nil]
  rw [member?_methodMembers "instructions" (.array (method.instructions.map Instruction.toJson)),
    member?_methodMembers "max_stack" (.int method.maxStack.toNat),
    member?_methodMembers "max_locals" (.int method.maxLocals.toNat)]
  · rfl
  all_goals simp [methodMembers]

theorem optionalType?_ofOption {type : Option MethodType}
    (typed : ∀ known ∈ type, ∃ text, MethodType.parse text = .ok known) :
    optionalType? (.ofOption (type.map fun type => .text type.text)) = some type := by
  cases type with
  | none => rfl
  | some known =>
      obtain ⟨text, read⟩ := typed known rfl
      have type_read := methodType?_text (MethodType.parse_eq_ok_iff.mp read).1
      simpa [Json.ofOption, Json.text, optionalType?] using type_read

theorem texts?_texts (contents : List String) : texts? (.texts contents) = some contents := by
  simp only [texts?, Json.texts, Json.items?, Option.bind_eq_bind, Option.bind_some]
  exact mapM_write_eq_some fun content _ => text?_text content

/-- A declaration is read back from its fields. -/
theorem ofFields?_declaration (storable : method.Storable owner) :
    ofFields? isNullOrEmpty (storedFields method.declaration) = some method.declaration := by
  have owner_read : orDefault "" Json.text?
      (if method.declaration.owner.isEmpty then none
        else some (.text method.declaration.owner)) = some method.declaration.owner := by
    split
    · rename_i unknown
      simp [orDefault, String.isEmpty_iff.mp unknown]
    · rfl
  have kind_read : choice? isNullOrEmpty MethodKind.tag MethodKind.all
      (.text method.declaration.kind.tag) = some method.declaration.kind := by
    cases method.declaration.kind <;> rfl
  have annotations_eq :
      AnnotationSet.ofList method.declaration.annotations.names = method.declaration.annotations :=
    congrArg AnnotationSet.mk (AnnotationSet.names_ofList_eq_self_iff.mpr
      ⟨storable.names_distinct, storable.names_normal⟩)
  simp only [storedFields, ofFields?, owner_read]
  simp [orDefault, optionalType?_ofOption storable.typed, uint16?_int, kind_read, texts?_texts,
    annotations_eq]

/-- A method is read back from its document. -/
theorem method?_toJson (storable : method.Storable owner) :
    method? 3 method.toJson = some method := by
  have instructions_read : instructions? (.array (method.instructions.map Instruction.toJson)) =
      some method.instructions := by
    simp only [instructions?, Json.items?, Option.bind_eq_bind, Option.bind_some]
    exact mapM_write_eq_some fun instruction member =>
      instruction?_toJson (storable.instructions_typed instruction member)
  have held_eq : (methodMembers method).filter (fun member => !bodyNames.contains member.1) =
      method.declaration.toMembers := by
    simp only [methodMembers, Declaration.toMembers, List.filter_append]
    split <;> simp [bodyNames]
  have held_holdable : (method.declaration.toMembers.all fun member =>
      member.2.isHoldable (Json.nestingLimit - 3)) = true :=
    List.all_eq_true.mpr (isHoldable_toMembers method.declaration (by decide))
  have members_eq : namedMembers? ((methodMembers method).map
      fun (name, value) => (some name, value)) = some (methodMembers method) :=
    namedMembers?_record (methodMembers method)
  have toJson_eq : method.toJson =
      .object ((methodMembers method).map fun (name, value) => (some name, value)) := rfl
  rw [toJson_eq, method?, members_eq]
  simp only [Option.bind_eq_bind, Option.bind_some, held_eq, held_holdable, mapM_bodyNames,
    mapM_declarationNames, ofFields?_declaration storable, uint16?_int]
  simp [orDefault, instructions_read]

theorem adopt_of_storable {file : ClassFile}
    (storable : ∀ method ∈ file.methods, method.Storable file.name) : file.adopt = file := by
  have owned : ∀ method ∈ file.methods,
      { method with declaration := { method.declaration with owner := file.name } } = method := by
    intro method member
    rw [← (storable method member).owner_eq]
  rw [ClassFile.adopt, List.map_congr_left owned, List.map_id']

/-- A class is read back from its document. -/
theorem classFile?_toJson {file : ClassFile}
    (storable : ∀ method ∈ file.methods, method.Storable file.name) :
    classFile? file.toJson = some file := by
  have fields_eq : fields? ["name", "methods"] file.toJson = _ := fields?_record (by simp)
  have methods_read : (file.methods.map Method.toJson).mapM (method? 3) = some file.methods :=
    mapM_write_eq_some fun method member => method?_toJson (storable method member)
  have adopt_eq : ClassFile.adopt ⟨file.name, file.methods⟩ = file := adopt_of_storable storable
  simp only [classFile?, fields_eq, List.map_cons, List.map_nil, orDefault, Json.items?,
    Option.bind_eq_bind, Option.bind_some, text?_text, methods_read, adopt_eq, Option.pure_def]

/-! ## Plain documents -/

open Json (Plain)

theorem plain_option {value : Option Json} (plain : ∀ known ∈ value, Plain known) :
    Plain (.ofOption value) := by
  cases value with
  | none => exact .null
  | some known => exact plain known rfl

theorem plain_instruction (instruction : Instruction) : Plain instruction.toJson := by
  have body_plain : ∀ body ∈ instruction.bodyToJson, Plain body := by
    cases instruction <;> intro body body_eq <;> cases body_eq
    all_goals
      first
      | exact .int _
      | exact .text _
      | exact .record (by simp [Plain.int, Plain.text, Label.toJson])
  rw [Instruction.toJson]
  cases body_eq : instruction.bodyToJson with
  | none => exact .text _
  | some body => exact .record (by simpa using body_plain body body_eq)

theorem plain_texts (contents : List String) : Plain (.texts contents) := by
  refine .array (List.forall_mem_map.mpr fun content _ => ?_)
  exact .text content

theorem plain_method (method : Method) : Plain method.toJson := by
  have type_plain :
      Plain (.ofOption (method.declaration.type.map fun type => .text type.text)) := by
    refine plain_option fun known known_eq => ?_
    obtain ⟨type, -, rfl⟩ := Option.map_eq_some_iff.mp known_eq
    exact .text type.text
  have instructions_plain : Plain (.array (method.instructions.map Instruction.toJson)) :=
    .array (List.forall_mem_map.mpr fun instruction _ => plain_instruction instruction)
  have owner_plain : ∀ member ∈ (if method.declaration.owner.isEmpty then []
      else [("owner", Json.text method.declaration.owner)]), Plain member.2 := by
    split <;> simp [Plain.text]
  rw [Method.toJson, Declaration.toMembers]
  refine .record (List.forall_mem_append.mpr ⟨List.forall_mem_append.mpr ⟨owner_plain, ?_⟩, ?_⟩)
  · simp [Plain.text, Plain.int, type_plain, plain_texts]
  · simp [Plain.int, instructions_plain]

theorem plain_file (file : ClassFile) : Plain file.toJson := by
  have methods_plain : Plain (.array (file.methods.map Method.toJson)) :=
    .array (List.forall_mem_map.mpr fun method _ => plain_method method)
  rw [ClassFile.toJson]
  exact .record (by simp [Plain.text, methods_plain])

end Document

/-- A class is read back from its text. -/
theorem ClassFile.parse_print {file : ClassFile}
    (storable : ∀ method ∈ file.methods, method.Storable file.name) :
    ClassFile.parse file.print = some file := by
  rw [ClassFile.parse, ClassFile.print, Json.parse_indented (Document.plain_file file)]
  exact Document.classFile?_toJson storable

/-- A text that has to be escaped. -/
def quotation : String := "say \"\\\" \t\n\u0001 é 😀"

/-- A type with a class of that name. -/
def quotingType : MethodType := ⟨[.array (.object quotation), .long], some .double⟩

/-- A class of texts that have to be escaped and of the largest and the smallest numbers. -/
def quotingFile : ClassFile :=
  { name := "shop/Cart"
    methods :=
      [{ declaration :=
          ⟨"shop/Cart", quotation, some quotingType, ⟨65535⟩, .function,
            ⟨["shop.Timed", quotation]⟩⟩
         instructions :=
          [.label ⟨4294967295⟩, .iconst (-2147483648), .lconst (-9223372036854775808),
            .ldc quotation, .load .long 65535, .iinc 65535 (-32768), .branchCompare .ge ⟨0⟩,
            .getStatic ⟨quotation, "", .array .int⟩, .invoke .special ⟨"", quotation, quotingType⟩,
            .ret (some .reference)]
         maxStack := 65535
         maxLocals := 0 },
       { declaration := ⟨"shop/Cart", "", none, ⟨0⟩, .synthetic, .empty⟩
         instructions := []
         maxStack := 0
         maxLocals := 65535 }] }

theorem ClassFile.parse_print_quotingFile :
    (∀ method ∈ quotingFile.methods, method.Storable quotingFile.name) ∧
      ClassFile.parse quotingFile.print = some quotingFile := by
  have type_read : ∃ text, MethodType.parse text = .ok quotingType := ⟨quotingType.text, by cbv⟩
  have field_read : ∃ text, FieldType.parse text = .ok (.array .int) := ⟨"[I", by cbv⟩
  have storable : ∀ method ∈ quotingFile.methods, method.Storable quotingFile.name := by
    refine List.forall_mem_cons.mpr ⟨?_, List.forall_mem_singleton.mpr ?_⟩
    · refine ⟨rfl, ?_, ?_, by decide, by decide +kernel⟩
      · rintro type ⟨⟩
        exact type_read
      · simp [Instruction.Typed, type_read, field_read]
    · exact ⟨rfl, by rintro type ⟨⟩, by rintro instruction ⟨⟩, by decide, by rintro name ⟨⟩⟩
  exact ⟨storable, ClassFile.parse_print storable⟩

end MethodTracing
