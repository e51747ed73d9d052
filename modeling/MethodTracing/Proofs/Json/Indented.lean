import Mathlib.Data.List.TakeWhile
import MethodTracing.Json.Parser
import MethodTracing.Json.Printer

/-!
# The indented form

A value whose numbers are integers is read back from its indented form.  What stands behind a value
in that form, a comma or a new line, cannot be taken for a part of it.
-/

namespace MethodTracing

/-! ## Numbers -/

namespace JsonNumber

theorem ofDigits_toDigits (value : Nat) : ofDigits (Nat.toDigits 10 value) = value := by
  have same (digits : List Char) : ofDigits digits = Nat.ofDigitChars 10 digits 0 := by
    simp only [ofDigits, Nat.ofDigitChars, Nat.mul_comm]
  rw [same, Nat.ofDigitChars_ten_toDigits]

/-- An integer is read back from the number that spells it. -/
theorem toInt?_ofInt (value : Int) : (ofInt value).toInt? = some value := by
  simp only [toInt?, ofInt, Nat.toList_repr, ofDigits_toDigits]
  rw [if_neg (by simp)]
  by_cases negative : value < 0
  · have nonzero : value.natAbs ≠ 0 := by omega
    have signed : -(value.natAbs : Int) = value := by omega
    rw [if_pos (decide_eq_true negative), if_neg nonzero, signed]
  · have unsigned : (value.natAbs : Int) = value := by omega
    rw [if_neg (by simpa using negative), unsigned]

/-- Only the numeral of zero begins with a zero. -/
theorem head?_toDigits_ne {value : Nat} (positive : 0 < value) :
    (Nat.toDigits 10 value).head? ≠ some '0' := by
  induction value using Nat.strongRecOn with
  | ind value ih =>
      by_cases small : value < 10
      · rw [Nat.toDigits_of_lt_base small]
        simp
        omega
      · rw [Nat.toDigits_of_base_le (by decide) (Nat.not_lt.mp small),
          List.head?_append, Option.or_of_isSome (by simp)]
        exact ih (value / 10) (by omega) (by omega)

end JsonNumber

namespace Json

theorem isDigit_of_mem_toDigits {value : Nat} {digit : Char}
    (member : digit ∈ Nat.toDigits 10 value) : isDigit digit = true := by
  have decimal : digit.isDigit = true := Nat.isDigit_of_mem_toDigits (by decide) (by decide) member
  simpa [isDigit, Char.isDigit, Char.le_def] using decimal

/-- What stands behind a value in the indented form: nothing, a comma, or a new line. -/
inductive Closes : List Char → Prop
  | atEnd : Closes []
  | comma (rest : List Char) : Closes (',' :: rest)
  | newLine (rest : List Char) : Closes ('\n' :: rest)

variable {rest : List Char}

/-- A numeral has no leading zeros. -/
theorem toDigits_fits (value : Nat) :
    ((Nat.toDigits 10 value).isEmpty ||
      ((Nat.toDigits 10 value).head? == some '0' && decide (1 < (Nat.toDigits 10 value).length))) =
        false := by
  by_cases positive : 0 < value
  · simp [JsonNumber.head?_toDigits_ne positive]
  · obtain rfl : value = 0 := by omega
    rfl

theorem takeSign_ofInt (value : Int) :
    takeSign (numberChars (.ofInt value) ++ rest) =
      (decide (value < 0), Nat.toDigits 10 value.natAbs ++ rest) := by
  by_cases negative : value < 0
  · simp [numberChars, JsonNumber.ofInt, negative, takeSign]
  · obtain ⟨digit, digits, digits_eq⟩ :=
      List.exists_cons_of_ne_nil (Nat.toDigits_ne_nil (n := value.natAbs) (b := 10))
    have unsigned : digit ≠ '-' := by
      rintro rfl
      have wrong : isDigit '-' = true :=
        isDigit_of_mem_toDigits (digits_eq ▸ List.mem_cons_self)
      simp [isDigit] at wrong
    simp [numberChars, JsonNumber.ofInt, negative, digits_eq, takeSign, unsigned]

/-- What closes a number is no part of it. -/
theorem takeNumber_ofInt (value : Int) (closes : Closes rest) :
    takeNumber (numberChars (.ofInt value) ++ rest) = some (.ofInt value, rest) := by
  have digits : ∀ digit ∈ Nat.toDigits 10 value.natAbs, isDigit digit = true :=
    fun digit member => isDigit_of_mem_toDigits member
  have whole_eq : (Nat.toDigits 10 value.natAbs ++ rest).takeWhile isDigit =
      Nat.toDigits 10 value.natAbs := by
    rw [List.takeWhile_append_of_pos digits]
    cases closes <;> simp [isDigit]
  have rest_eq : (Nat.toDigits 10 value.natAbs ++ rest).dropWhile isDigit = rest := by
    rw [List.dropWhile_append_of_pos digits]
    cases closes <;> simp [isDigit]
  have fraction_eq : takeFraction rest = some ([], rest) := by
    cases closes <;> rfl
  have exponent_eq : takeExponent rest = some (none, rest) := by
    cases closes <;> rfl
  simp only [takeNumber, takeSign_ofInt, whole_eq, rest_eq, toDigits_fits, fraction_eq,
    exponent_eq, Bool.false_eq_true, if_false, Option.bind_eq_bind, Option.bind_some,
    Option.pure_def]
  rw [JsonNumber.ofInt, Nat.toList_repr]

/-! ## Texts -/

section Texts

variable {seen : List Char} {char : Char}

theorem takeText_shortEscape {escape : Char} (stands : shortEscape? escape = some char)
    (named : escape ≠ 'u') :
    takeText ⟨some seen, none⟩ ('\\' :: escape :: rest) =
      takeText ⟨some (char :: seen), none⟩ rest := by
  simp [takeText, stands, named, TextPart.addChar]

theorem unit?_digitChar {unit : Nat} (control : unit < 0x20) :
    unit? '0' '0' (Nat.digitChar (unit / 16)) (Nat.digitChar (unit % 16)) = some unit := by
  have all : ∀ unit < 0x20,
      unit? '0' '0' (Nat.digitChar (unit / 16)) (Nat.digitChar (unit % 16)) = some unit := by decide
  exact all unit control

theorem takeText_numbered (control : char.toNat < 0x20) :
    takeText ⟨some seen, none⟩ ('\\' :: 'u' :: '0' :: '0' :: Nat.digitChar (char.toNat / 16) ::
        Nat.digitChar (char.toNat % 16) :: rest) =
      takeText ⟨some (char :: seen), none⟩ rest := by
  have no_low : isLowHalf char.toNat = false := by simp [isLowHalf]; omega
  have no_high : isHighHalf char.toNat = false := by simp [isHighHalf]; omega
  simp [takeText, unit?_digitChar control, TextPart.addUnit, no_low, no_high]

theorem takeText_itself (unquoted : char ≠ '"') (unescaped : char ≠ '\\')
    (visible : ¬char.toNat < 0x20) :
    takeText ⟨some seen, none⟩ (char :: rest) = takeText ⟨some (char :: seen), none⟩ rest := by
  simp [takeText, unescaped, visible, TextPart.addChar]

/-- A character is read back from its escaped form. -/
theorem takeText_escapeChar (seen : List Char) (char : Char) (rest : List Char) :
    takeText ⟨some seen, none⟩ (escapeChar char ++ rest) =
      takeText ⟨some (char :: seen), none⟩ rest := by
  unfold escapeChar
  split
  next quote => exact takeText_shortEscape (by rw [quote]; rfl) (by decide)
  next unquoted =>
  split
  next backslash => exact takeText_shortEscape (by rw [backslash]; rfl) (by decide)
  next unescaped =>
  split
  next backspace => exact takeText_shortEscape (by rw [backspace]; rfl) (by decide)
  split
  next tab => exact takeText_shortEscape (by rw [tab]; rfl) (by decide)
  split
  next line => exact takeText_shortEscape (by rw [line]; rfl) (by decide)
  split
  next feed => exact takeText_shortEscape (by rw [feed]; rfl) (by decide)
  split
  next carriage => exact takeText_shortEscape (by rw [carriage]; rfl) (by decide)
  split
  next control => exact takeText_numbered control
  next visible => exact takeText_itself unquoted unescaped visible

theorem takeText_escaped (seen content rest : List Char) :
    takeText ⟨some seen, none⟩ (content.flatMap escapeChar ++ '"' :: rest) =
      some (some (String.ofList (seen.reverse ++ content)), rest) := by
  induction content generalizing seen with
  | nil => simp [takeText, TextPart.close]
  | cons char content ih =>
      rw [List.flatMap_cons, List.append_assoc, takeText_escapeChar, ih]
      simp

/-- A text is read back from its quoted form. -/
theorem exists_textChars (content : String) (rest : List Char) :
    ∃ quoted, textChars (some content) ++ rest = '"' :: quoted ∧
      takeText .empty quoted = some (some content, rest) := by
  refine ⟨content.toList.flatMap escapeChar ++ '"' :: rest, by simp [textChars], ?_⟩
  rw [TextPart.empty, takeText_escaped]
  simp

end Texts

/-! ## Plain values -/

/-- A value whose numbers are integers and whose texts and names can be written as they are. -/
inductive Plain : Json → Prop
  | null : Plain null
  | boolean (value : Bool) : Plain (.boolean value)
  | int (value : Int) : Plain (.int value)
  | text (content : String) : Plain (.text content)
  | array {items : List Json} (plain : ∀ item ∈ items, Plain item) : Plain (.array items)
  | record {members : List (String × Json)} (plain : ∀ member ∈ members, Plain member.2) :
      Plain (.record members)

/-! ## White space -/

@[simp]
theorem skipSpace_newLine (level : Nat) (chars : List Char) :
    skipSpace (newLine level ++ chars) = skipSpace chars := by
  have blank : ∀ char ∈ newLine level, isSpace char = true := by
    simp [newLine, List.mem_replicate, isSpace]
  exact List.dropWhile_append_of_pos blank

theorem skipSpace_cons {first : Char} (visible : isSpace first = false) (rest : List Char) :
    skipSpace (first :: rest) = first :: rest := by
  simp [skipSpace, visible]

@[simp]
theorem takeValue_newLine (fuel level : Nat) (chars : List Char) :
    takeValue fuel (newLine level ++ chars) = takeValue fuel chars := by
  cases fuel with
  | zero => simp only [takeValue]
  | succ fuel => simp only [takeValue, skipSpace_newLine]

@[simp]
theorem takeValue_space (fuel : Nat) (chars : List Char) :
    takeValue fuel (' ' :: chars) = takeValue fuel chars := by
  cases fuel with
  | zero => simp only [takeValue]
  | succ fuel => simp [takeValue, skipSpace, isSpace]

theorem closes_newLine (level : Nat) (rest : List Char) : Closes (newLine level ++ rest) :=
  .newLine _

/-! ## First characters -/

/-- The first character of an integer. -/
theorem exists_numberChars_eq_cons (value : Int) :
    ∃ first tail, numberChars (.ofInt value) = first :: tail ∧
      (first = '-' ∨ isDigit first = true) := by
  by_cases negative : value < 0
  · exact ⟨'-', Nat.toDigits 10 value.natAbs,
      by simp [numberChars, JsonNumber.ofInt, negative], Or.inl rfl⟩
  · obtain ⟨digit, digits, digits_eq⟩ :=
      List.exists_cons_of_ne_nil (Nat.toDigits_ne_nil (n := value.natAbs) (b := 10))
    refine ⟨digit, digits, ?_, Or.inr (isDigit_of_mem_toDigits (digits_eq ▸ List.mem_cons_self))⟩
    simp [numberChars, JsonNumber.ofInt, negative, digits_eq]

theorem isSpace_of_numeric {first : Char} (numeric : first = '-' ∨ isDigit first = true) :
    isSpace first = false := by
  cases space : isSpace first with
  | false => rfl
  | true =>
      simp only [isSpace, Bool.or_eq_true, beq_iff_eq] at space
      rcases space with ((rfl | rfl) | rfl) | rfl <;> simp [isDigit] at numeric

/-- What begins like a number is read as one. -/
theorem takeValue_of_numeric {fuel : Nat} {first : Char} {tail : List Char}
    (numeric : first = '-' ∨ isDigit first = true) :
    takeValue (fuel + 1) (first :: tail) =
      (takeNumber (first :: tail)).map fun (value, rest) => (number value, rest) := by
  rw [takeValue, skipSpace_cons (isSpace_of_numeric numeric)]
  split <;> simp_all [isDigit]

/-- No value begins with a space or like the end of an array. -/
theorem exists_indented_eq_cons {value : Json} (plain : Plain value) (level : Nat) :
    ∃ first tail, indentedChars level value = first :: tail ∧ isSpace first = false ∧
      first ≠ ']' := by
  cases plain with
  | null => exact ⟨_, _, rfl, by decide, by decide⟩
  | boolean value => cases value <;> exact ⟨_, _, rfl, by decide, by decide⟩
  | int value =>
      obtain ⟨first, tail, chars_eq, numeric⟩ := exists_numberChars_eq_cons value
      refine ⟨first, tail, by rw [int, indentedChars, chars_eq], isSpace_of_numeric numeric, ?_⟩
      rintro rfl
      simp [isDigit] at numeric
  | text content => exact ⟨_, _, rfl, by decide, by decide⟩
  | @array items _ => cases items <;> exact ⟨_, _, rfl, by decide, by decide⟩
  | @record members _ => cases members <;> exact ⟨_, _, rfl, by decide, by decide⟩

/-- A value is read back from its indented form, whatever closes it.  Each step of the reader has a
character of its own, so as many steps as there are characters are enough. -/
def ReadsBack (value : Json) : Prop :=
  ∀ {fuel level : Nat} {rest : List Char}, (indentedChars level value).length ≤ fuel →
    Closes rest → takeValue fuel (indentedChars level value ++ rest) = some (value, rest)

/-- Reading a value takes at least one step. -/
theorem readsBack_of_succ {value : Json} (plain : Plain value)
    (reads : ∀ {fuel level : Nat} {rest : List Char},
      (indentedChars level value).length ≤ fuel + 1 → Closes rest →
        takeValue (fuel + 1) (indentedChars level value ++ rest) = some (value, rest)) :
    ReadsBack value := by
  intro fuel level rest enough closes
  obtain ⟨first, tail, chars_eq, -⟩ := exists_indented_eq_cons plain level
  cases fuel with
  | zero => simp [chars_eq] at enough
  | succ fuel => exact reads enough closes

/-! ## Items and members -/

/-- Items on lines of their own are read back, with the bracket behind them. -/
theorem takeItems_indented {items : List Json} (inhabited : items ≠ [])
    (reads : ∀ item ∈ items, ReadsBack item) {fuel level : Nat}
    (enough : (indentedItems level items).length < fuel) (outer : Nat) (rest : List Char) :
    takeItems fuel (newLine level ++
        (indentedItems level items ++ (newLine outer ++ ']' :: rest))) =
      some (items, rest) := by
  induction items generalizing fuel with
  | nil => exact absurd rfl inhabited
  | cons item others ih =>
      obtain ⟨item_reads, others_read⟩ := List.forall_mem_cons.mp reads
      obtain ⟨fuel, rfl⟩ := Nat.exists_eq_succ_of_ne_zero (Nat.ne_zero_of_lt enough)
      cases others with
      | nil =>
          simp only [indentedItems] at enough ⊢
          rw [takeItems, takeValue_newLine, item_reads (by omega) (closes_newLine outer _)]
          simp only [skipSpace_newLine, skipSpace_cons (show isSpace ']' = false from rfl)]
      | cons next others =>
          simp only [indentedItems, List.length_append, List.length_cons] at enough
          simp only [indentedItems, List.append_assoc, List.cons_append]
          rw [takeItems, takeValue_newLine, item_reads (by omega) (.comma _)]
          simp only [skipSpace_cons (show isSpace ',' = false from rfl)]
          rw [ih (by simp) others_read (by omega)]
          rfl

/-- Members with their names. -/
def named (members : List (String × Json)) : List (Option String × Json) :=
  members.map fun (name, value) => (some name, value)

theorem indentedMembers_singleton (level : Nat) (name : String) (value : Json) :
    indentedMembers level (named [(name, value)]) =
      textChars (some name) ++ ':' :: ' ' :: indentedChars level value := by
  simp only [named, List.map_cons, List.map_nil, indentedMembers]

theorem indentedMembers_cons_cons (level : Nat) (name : String) (value : Json)
    (next : String × Json) (others : List (String × Json)) :
    indentedMembers level (named ((name, value) :: next :: others)) =
      textChars (some name) ++ ':' :: ' ' :: (indentedChars level value ++
        ',' :: (newLine level ++ indentedMembers level (named (next :: others)))) := by
  simp only [named, List.map_cons, indentedMembers, List.append_assoc, List.cons_append]

/-- A member on a line of its own is read back.  A brace behind it ends the members, and a comma
goes on with the others. -/
theorem takeMembers_member (name : String) {value : Json} (reads : ReadsBack value)
    {fuel level : Nat} {rest : List Char} (enough : (indentedChars level value).length ≤ fuel)
    (closes : Closes rest) :
    (∀ after, skipSpace rest = '\x7d' :: after →
      takeMembers (fuel + 1) (newLine level ++
          (textChars (some name) ++ ':' :: ' ' :: (indentedChars level value ++ rest))) =
        some ([(some name, value)], after)) ∧
    ∀ after, skipSpace rest = ',' :: after →
      takeMembers (fuel + 1) (newLine level ++
          (textChars (some name) ++ ':' :: ' ' :: (indentedChars level value ++ rest))) =
        (takeMembers fuel after).map fun (members, rest) =>
          ((some name, value) :: members, rest) := by
  obtain ⟨quoted, written, read⟩ := exists_textChars name
    (':' :: ' ' :: (indentedChars level value ++ rest))
  have colon (rest : List Char) : skipSpace (':' :: rest) = ':' :: rest := skipSpace_cons rfl rest
  rw [written, takeMembers, skipSpace_newLine, skipSpace_cons rfl]
  simp only [read, colon, takeValue_space, reads enough closes]
  constructor
  · intro after ends
    simp only [ends]
  · intro after goes_on
    simp only [goes_on]

/-- Members on lines of their own are read back, with the brace behind them. -/
theorem takeMembers_indented {members : List (String × Json)} (inhabited : members ≠ [])
    (reads : ∀ member ∈ members, ReadsBack member.2) {fuel level : Nat}
    (enough : (indentedMembers level (named members)).length < fuel) (outer : Nat)
    (rest : List Char) :
    takeMembers fuel (newLine level ++
        (indentedMembers level (named members) ++ (newLine outer ++ '\x7d' :: rest))) =
      some (named members, rest) := by
  induction members generalizing fuel with
  | nil => exact absurd rfl inhabited
  | cons member others ih =>
      obtain ⟨name, value⟩ := member
      obtain ⟨value_reads, others_read⟩ := List.forall_mem_cons.mp reads
      obtain ⟨fuel, rfl⟩ := Nat.exists_eq_succ_of_ne_zero (Nat.ne_zero_of_lt enough)
      cases others with
      | nil =>
          rw [indentedMembers_singleton, List.length_append, List.length_cons,
            List.length_cons] at enough
          have value_enough : (indentedChars level value).length ≤ fuel := by omega
          rw [indentedMembers_singleton, List.append_assoc, List.cons_append, List.cons_append]
          have ended := (takeMembers_member name value_reads value_enough
            (closes_newLine outer ('\x7d' :: rest))).1
          exact ended rest (by rw [skipSpace_newLine, skipSpace_cons rfl])
      | cons next others =>
          simp only [indentedMembers_cons_cons, List.length_append, List.length_cons] at enough
          have value_enough : (indentedChars level value).length ≤ fuel := by omega
          simp only [indentedMembers_cons_cons, List.append_assoc, List.cons_append]
          rw [(takeMembers_member name value_reads value_enough (.comma _)).2 _
            (skipSpace_cons rfl _), ih (by simp) others_read (by omega)]
          rfl

/-! ## Reading values back -/

theorem readsBack_int (value : Int) : ReadsBack (.int value) := by
  refine readsBack_of_succ (.int value) fun {fuel level rest} _ closes => ?_
  obtain ⟨first, tail, chars_eq, numeric⟩ := exists_numberChars_eq_cons value
  have number_taken := takeNumber_ofInt value closes
  rw [int, indentedChars]
  rw [chars_eq, List.cons_append] at number_taken ⊢
  rw [takeValue_of_numeric numeric, number_taken]
  rfl

theorem readsBack_text (content : String) : ReadsBack (.text content) := by
  refine readsBack_of_succ (.text content) fun {fuel level rest} _ _ => ?_
  obtain ⟨quoted, written, read⟩ := exists_textChars content rest
  rw [text, indentedChars, written, takeValue, skipSpace_cons rfl]
  simp only [read, Option.map_some]

theorem exists_indentedItems_eq_cons {item : Json} (plain : Plain item) (level : Nat)
    (others : List Json) :
    ∃ first tail, indentedItems level (item :: others) = first :: tail ∧ isSpace first = false ∧
      first ≠ ']' := by
  obtain ⟨first, tail, item_eq, visible, no_end⟩ := exists_indented_eq_cons plain level
  cases others with
  | nil => exact ⟨first, tail, by rw [indentedItems, item_eq], visible, no_end⟩
  | cons next others =>
      refine ⟨first, tail ++ (',' :: newLine level) ++ indentedItems level (next :: others), ?_,
        visible, no_end⟩
      simp only [indentedItems, item_eq, List.cons_append]

theorem readsBack_array {items : List Json} (plain : ∀ item ∈ items, Plain item)
    (reads : ∀ item ∈ items, ReadsBack item) : ReadsBack (.array items) := by
  refine readsBack_of_succ (.array plain) fun {fuel level rest} enough _ => ?_
  cases items with
  | nil => rfl
  | cons item others =>
      simp only [indentedChars, List.length_append, List.length_cons, List.length_nil] at enough
      have items_enough : (indentedItems (level + 1) (item :: others)).length < fuel := by omega
      have taken := takeItems_indented (List.cons_ne_nil item others) reads items_enough level rest
      obtain ⟨first, tail, items_eq, visible, no_end⟩ :=
        exists_indentedItems_eq_cons (plain item List.mem_cons_self) (level + 1) others
      rw [items_eq, List.cons_append] at taken
      simp only [indentedChars, items_eq, List.cons_append, List.append_assoc, List.nil_append]
      rw [takeValue, skipSpace_cons rfl]
      simp only [skipSpace_newLine, skipSpace_cons visible]
      split
      · rename_i ends
        exact absurd (List.cons.inj ends).1 no_end
      · rw [taken]
        rfl

theorem readsBack_record {members : List (String × Json)}
    (plain : ∀ member ∈ members, Plain member.2)
    (reads : ∀ member ∈ members, ReadsBack member.2) : ReadsBack (.record members) := by
  refine readsBack_of_succ (.record plain) fun {fuel level rest} enough _ => ?_
  cases members with
  | nil => rfl
  | cons member others =>
      have record_eq : record (member :: others) = .object (named (member :: others)) := rfl
      have named_eq : named (member :: others) = (some member.1, member.2) :: named others := rfl
      rw [record_eq, named_eq] at enough ⊢
      simp only [indentedChars, List.length_append, List.length_cons, List.length_nil] at enough
      have members_enough :
          (indentedMembers (level + 1) (named (member :: others))).length < fuel := by
        rw [named_eq]
        omega
      have taken :=
        takeMembers_indented (List.cons_ne_nil member others) reads members_enough level rest
      rw [named_eq] at taken
      obtain ⟨tail, members_eq⟩ : ∃ tail, indentedMembers (level + 1)
          ((some member.1, member.2) :: named others) = '"' :: tail := by
        cases others <;> exact ⟨_, rfl⟩
      rw [members_eq, List.cons_append] at taken
      simp only [indentedChars, members_eq, List.cons_append, List.append_assoc, List.nil_append]
      rw [takeValue, skipSpace_cons rfl]
      simp only [skipSpace_newLine, skipSpace_cons (show isSpace '"' = false from rfl), taken,
        Option.map_some]
      rfl

/-- A plain value is read back, by induction on what it is made of. -/
theorem readsBack {value : Json} (plain : Plain value) : ReadsBack value := by
  induction plain with
  | null => exact readsBack_of_succ .null fun _ _ => rfl
  | boolean value =>
      refine readsBack_of_succ (.boolean value) fun _ _ => ?_
      cases value <;> rfl
  | int value => exact readsBack_int value
  | text content => exact readsBack_text content
  | array plain reads => exact readsBack_array plain reads
  | record plain reads => exact readsBack_record plain reads

/-- Plain values are read back from their indented form. -/
theorem parse_indented {value : Json} (plain : Plain value) :
    parse value.indented = some value := by
  have taken := readsBack plain (Nat.le_succ (indentedChars 0 value).length) .atEnd
  rw [List.append_nil] at taken
  simp [parse, parseChars, indented, taken, skipSpace]

end Json
end MethodTracing
