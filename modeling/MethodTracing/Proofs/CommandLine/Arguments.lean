import Mathlib.Algebra.Ring.Int.Defs
import Mathlib.Data.Nat.Digits.Defs
import MethodTracing.CommandLine.Argument
import MethodTracing.Proofs.Annotation.Names

/-!
# Reading arguments

The numbers that texts denote, place by place, and their ranges.  A reader that stops at the first
digit with which a number gets too large reads every number in range, and none beyond it: what is
read never wraps around and is never cut off.
-/

namespace MethodTracing

/-! ## Numerals -/

namespace Text

/-- Decimal digits, at least one, and the number that they denote. -/
inductive Digits : List Char → Nat → Prop
  | last {char : Char} (decimal : char.isDigit) : Digits [char] (char.toNat - '0'.toNat)
  | cons {char : Char} {rest : List Char} {value : Nat} (decimal : char.isDigit)
      (digits : Digits rest value) :
      Digits (char :: rest) ((char.toNat - '0'.toNat) * 10 ^ rest.length + value)

/-- Decimal digits behind an optional sign, and the integer that they denote. -/
inductive Numeral : List Char → Int → Prop
  | unsigned {chars : List Char} {value : Nat} (digits : Digits chars value) : Numeral chars value
  | plus {chars : List Char} {value : Nat} (digits : Digits chars value) :
      Numeral ('+' :: chars) value
  | minus {chars : List Char} {value : Nat} (digits : Digits chars value) :
      Numeral ('-' :: chars) (-value)

section Digits

variable {chars : List Char} {value : Nat}

theorem Digits.ne_nil (digits : Digits chars value) : chars ≠ [] := by
  cases digits <;> simp

theorem Digits.isDigit_of_mem (digits : Digits chars value) : ∀ char ∈ chars, char.isDigit := by
  induction digits with
  | last decimal => simpa using decimal
  | cons decimal _ ih => exact List.forall_mem_cons.mpr ⟨decimal, ih⟩

theorem Digits.ofDigitChars_eq (digits : Digits chars value) :
    Nat.ofDigitChars 10 chars 0 = value := by
  induction digits with
  | last decimal => simp [Nat.ofDigitChars_cons]
  | cons decimal _ ih =>
      rw [Nat.ofDigitChars_cons, Nat.ofDigitChars_eq_ofDigitChars_zero, ih]
      ring

theorem exists_digits (nonempty : chars ≠ []) (decimal : ∀ char ∈ chars, char.isDigit) :
    ∃ value, Digits chars value := by
  induction chars with
  | nil => exact absurd rfl nonempty
  | cons char rest ih =>
      obtain ⟨here, later⟩ := List.forall_mem_cons.mp decimal
      by_cases alone : rest = []
      · exact ⟨_, alone ▸ Digits.last here⟩
      · obtain ⟨value, digits⟩ := ih alone later
        exact ⟨_, .cons here digits⟩

/-- Digits denote the number that the library assigns to them. -/
theorem digits_iff :
    Digits chars value ↔
      chars ≠ [] ∧ (∀ char ∈ chars, char.isDigit) ∧ Nat.ofDigitChars 10 chars 0 = value := by
  constructor
  · intro digits
    exact ⟨digits.ne_nil, digits.isDigit_of_mem, digits.ofDigitChars_eq⟩
  · rintro ⟨nonempty, decimal, rfl⟩
    obtain ⟨value, digits⟩ := exists_digits nonempty decimal
    exact digits.ofDigitChars_eq ▸ digits

theorem digits_toDigits (value : Nat) : Digits (Nat.toDigits 10 value) value :=
  digits_iff.mpr ⟨Nat.toDigits_ne_nil, fun _ member =>
    Nat.isDigit_of_mem_toDigits (by decide) (by decide) member, Nat.ofDigitChars_ten_toDigits⟩

theorem digitValue?_eq (char : Char) :
    digitValue? char = if char.isDigit then some (char.toNat - '0'.toNat) else none := by
  simp [digitValue?, Char.isDigit, Char.le_def]

theorem le_ofDigitChars (before : Nat) (chars : List Char) :
    before ≤ Nat.ofDigitChars 10 chars before := by
  rw [Nat.ofDigitChars_eq_ofDigitChars_zero]
  exact (Nat.le_mul_of_pos_left before (by positivity)).trans (Nat.le_add_right ..)

/-- A magnitude is read if and only if it stays within the limit: what was read never shrinks when
digits are appended, so the first excess is final. -/
theorem readMagnitude_eq_ok_iff {limit before result : Nat} {overflow : NumeralError}
    (within : before ≤ limit) :
    readMagnitude limit overflow before chars = .ok result ↔
      (∀ char ∈ chars, char.isDigit) ∧ Nat.ofDigitChars 10 chars before = result ∧
        result ≤ limit := by
  induction chars generalizing before with
  | nil =>
      simp only [readMagnitude, Except.ok.injEq, List.not_mem_nil, Nat.ofDigitChars_nil]
      constructor
      · rintro rfl
        exact ⟨by simp, rfl, within⟩
      · exact fun holds => holds.2.1
  | cons char rest ih =>
      rw [readMagnitude, digitValue?_eq, Nat.ofDigitChars_cons, Nat.mul_comm 10]
      by_cases decimal : char.isDigit
      · simp only [decimal, if_true, List.forall_mem_cons, true_and]
        split
        · rename_i excess
          have grows := le_ofDigitChars (before * 10 + (char.toNat - '0'.toNat)) rest
          refine ⟨nofun, fun ⟨_, value_eq, fits⟩ => ?_⟩
          omega
        · rename_i fits
          exact ih (Nat.not_lt.mp fits)
      · simp [decimal]

/-- Digits are read if and only if the number that they denote is within the limit. -/
theorem map_readMagnitude_eq_ok_iff {limit : Nat} {overflow : NumeralError} {signed : Nat → Int}
    {result : Int} (nonempty : chars ≠ []) :
    (readMagnitude limit overflow 0 chars).map signed = .ok result ↔
      ∃ number, Digits chars number ∧ number ≤ limit ∧ signed number = result := by
  have read_iff {number : Nat} : readMagnitude limit overflow 0 chars = .ok number ↔
      Digits chars number ∧ number ≤ limit := by
    rw [readMagnitude_eq_ok_iff (Nat.zero_le limit), digits_iff]
    simp [nonempty, and_assoc]
  simp only [← and_assoc, ← read_iff]
  cases readMagnitude limit overflow 0 chars with
  | error cause => simp [Except.map]
  | ok number => simp [Except.map]

end Digits

section Numerals

variable {chars : List Char} {value : Int}

theorem not_digits_of_sign {sign : Char} {number : Nat} (signed : sign = '+' ∨ sign = '-') :
    ¬Digits (sign :: chars) number := by
  intro digits
  have decimal := digits.isDigit_of_mem sign List.mem_cons_self
  rcases signed with rfl | rfl <;> simp [Char.isDigit] at decimal

theorem numeral_plus_iff :
    Numeral ('+' :: chars) value ↔ ∃ number : Nat, Digits chars number ∧ value = number := by
  constructor
  · intro numeral
    cases numeral with
    | unsigned digits => exact absurd digits (not_digits_of_sign (.inl rfl))
    | plus digits => exact ⟨_, digits, rfl⟩
  · rintro ⟨number, digits, rfl⟩
    exact .plus digits

theorem numeral_minus_iff :
    Numeral ('-' :: chars) value ↔ ∃ number : Nat, Digits chars number ∧ value = -number := by
  constructor
  · intro numeral
    cases numeral with
    | unsigned digits => exact absurd digits (not_digits_of_sign (.inr rfl))
    | minus digits => exact ⟨_, digits, rfl⟩
  · rintro ⟨number, digits, rfl⟩
    exact .minus digits

theorem numeral_unsigned_iff (unsigned : ∀ rest, chars ≠ '+' :: rest ∧ chars ≠ '-' :: rest) :
    Numeral chars value ↔ ∃ number : Nat, Digits chars number ∧ value = number := by
  constructor
  · intro numeral
    cases numeral with
    | unsigned digits => exact ⟨_, digits, rfl⟩
    | plus _ => exact absurd rfl (unsigned _).1
    | minus _ => exact absurd rfl (unsigned _).2
  · rintro ⟨number, digits, rfl⟩
    exact .unsigned digits

/-- A numeral is read if and only if its value is in range. -/
theorem readInteger_eq_ok_iff {below above : Nat} :
    readInteger below above chars = .ok value ↔
      Numeral chars value ∧ -(below : Int) ≤ value ∧ value ≤ above := by
  have no_digits {number : Nat} : ¬Digits [] number := fun digits => digits.ne_nil rfl
  have nonnegative {digits : List Char} :
      (∃ number, Digits digits number ∧ number ≤ above ∧ Int.ofNat number = value) ↔
        (∃ number : Nat, Digits digits number ∧ value = number) ∧
          -(below : Int) ≤ value ∧ value ≤ above := by
    constructor
    · rintro ⟨number, digits, fits, rfl⟩
      exact ⟨⟨number, digits, rfl⟩, by simp, by simpa using fits⟩
    · rintro ⟨⟨number, digits, rfl⟩, -, fits⟩
      exact ⟨number, digits, by omega, rfl⟩
  unfold readInteger
  split
  · simp [numeral_unsigned_iff, no_digits]
  · simp [numeral_plus_iff, no_digits]
  · simp [numeral_minus_iff, no_digits]
  · rename_i digits bare
    rw [map_readMagnitude_eq_ok_iff bare, numeral_plus_iff]
    exact nonnegative
  · rename_i digits bare
    have negated (read : Except NumeralError Nat) :
        ((do return (← read : Int)) : Except NumeralError Int).map (fun magnitude => -magnitude) =
          read.map fun magnitude : Nat => -(magnitude : Int) := by
      cases read <;> rfl
    rw [negated, map_readMagnitude_eq_ok_iff bare, numeral_minus_iff]
    constructor
    · rintro ⟨number, digits, fits, rfl⟩
      exact ⟨⟨number, digits, rfl⟩, by omega, by omega⟩
    · rintro ⟨⟨number, digits, rfl⟩, fits, -⟩
      exact ⟨number, digits, by omega, rfl⟩
  · rename_i bare _ _ no_plus no_minus
    rw [map_readMagnitude_eq_ok_iff bare,
      numeral_unsigned_iff fun rest => ⟨no_plus rest, no_minus rest⟩]
    exact nonnegative

/-- A numeral is read into a type of fixed width if and only if its value is one of the type. -/
theorem map_readInteger_eq_ok_iff {Fixed : Type} {ofInt : Int → Fixed} {toInt : Fixed → Int}
    {below above : Nat} (ofInt_toInt : ∀ fixed, ofInt (toInt fixed) = fixed)
    (toInt_ofInt : ∀ value, -(below : Int) ≤ value → value ≤ above → toInt (ofInt value) = value)
    (bounds : ∀ fixed, -(below : Int) ≤ toInt fixed ∧ toInt fixed ≤ above) (fixed : Fixed) :
    (readInteger below above chars).map ofInt = .ok fixed ↔ Numeral chars (toInt fixed) := by
  constructor
  · intro mapped
    cases read : readInteger below above chars with
    | error cause =>
        rw [read] at mapped
        cases mapped
    | ok value =>
        rw [read] at mapped
        cases mapped
        obtain ⟨numeral, least, most⟩ := readInteger_eq_ok_iff.mp read
        rwa [toInt_ofInt value least most]
  · intro numeral
    rw [readInteger_eq_ok_iff.mpr ⟨numeral, bounds fixed⟩, Except.map, ofInt_toInt]

theorem numeral_decimal (value : Int) : Numeral (decimal value).toList value := by
  cases value with
  | ofNat number =>
      rw [decimal, Nat.toList_repr]
      exact .unsigned (digits_toDigits number)
  | negSucc number =>
      rw [decimal, String.toList_append, Nat.toList_repr]
      exact .minus (digits_toDigits (number + 1))

theorem isBlank_of_isDigit {char : Char} (decimal : char.isDigit) : isBlank char = false := by
  have range := Char.isDigit_iff_toNat.mp decimal
  simp only [show '0'.toNat = 48 from rfl, show '9'.toNat = 57 from rfl] at range
  simp [isBlank]
  omega

theorem Numeral.isBlank_of_mem (numeral : Numeral chars value) :
    ∀ char ∈ chars, isBlank char = false := by
  have digits_only {digits : List Char} {number : Nat} (denoted : Digits digits number) :
      ∀ char ∈ digits, isBlank char = false :=
    fun char member => isBlank_of_isDigit (denoted.isDigit_of_mem char member)
  cases numeral with
  | unsigned digits => exact digits_only digits
  | plus digits => exact List.forall_mem_cons.mpr ⟨by decide, digits_only digits⟩
  | minus digits => exact List.forall_mem_cons.mpr ⟨by decide, digits_only digits⟩

/-- A numeral ends with a digit. -/
theorem Numeral.isDigit_of_getLast? {char : Char} (numeral : Numeral chars value)
    (ends : chars.getLast? = some char) : char.isDigit := by
  have ends_with {digits : List Char} {number : Nat} (digits_number : Digits digits number)
      (ends : digits.getLast? = some char) : char.isDigit :=
    digits_number.isDigit_of_mem char (List.mem_of_getLast? ends)
  cases numeral with
  | unsigned digits => exact ends_with digits ends
  | plus digits =>
      rw [List.getLast?_cons_of_ne_nil digits.ne_nil] at ends
      exact ends_with digits ends
  | minus digits =>
      rw [List.getLast?_cons_of_ne_nil digits.ne_nil] at ends
      exact ends_with digits ends

end Numerals
end Text

/-! ## Arguments -/

namespace CommandLine

open Text (Numeral)

/-- A numeral with the mark of a `long` behind it. -/
def MarkedNumeral (chars : List Char) (value : Int) : Prop :=
  ∃ numeral mark, chars = numeral ++ [mark] ∧ (mark = 'L' ∨ mark = 'l') ∧ Numeral numeral value

variable {chars : List Char}

theorem not_any_isLongMark {value : Int} (numeral : Numeral chars value) :
    chars.getLast?.any isLongMark = false := by
  cases ends : chars.getLast? with
  | none => rfl
  | some char =>
      have decimal := numeral.isDigit_of_getLast? ends
      simp only [Option.any_some, isLongMark, Bool.or_eq_false_iff, beq_eq_false_iff_ne]
      constructor <;> rintro rfl <;> simp [Char.isDigit] at decimal

theorem readArgumentChars_unmarked (unmarked : chars.getLast?.any isLongMark = false)
    {value : Machine.Value} :
    readArgumentChars chars = .ok value ↔
      ∃ number : Int32, value = .int number ∧ Numeral chars number.toInt := by
  have read_iff : ∀ number : Int32,
      (Text.readInteger 0x80000000 0x7FFFFFFF chars).map Int32.ofInt = .ok number ↔
        Numeral chars number.toInt :=
    Text.map_readInteger_eq_ok_iff Int32.ofInt_toInt
      (fun _ least most => Int32.toInt_ofInt_of_le least (Int.lt_add_one_of_le most))
      (fun number => ⟨number.le_toInt, Int.le_of_lt_add_one number.toInt_lt⟩)
  simp only [← read_iff, readArgumentChars, unmarked, Bool.false_eq_true, if_false]
  cases Text.readInteger 0x80000000 0x7FFFFFFF chars with
  | error cause => simp [Except.map]
  | ok number => simp [Except.map, eq_comm]

theorem readArgumentChars_marked {numeral : List Char} {mark : Char}
    (marked : mark = 'L' ∨ mark = 'l') {value : Machine.Value} :
    readArgumentChars (numeral ++ [mark]) = .ok value ↔
      ∃ number : Int64, value = .long number ∧ Numeral numeral number.toInt := by
  have read_iff : ∀ number : Int64,
      (Text.readInteger 0x8000000000000000 0x7FFFFFFFFFFFFFFF numeral).map Int64.ofInt =
          .ok number ↔ Numeral numeral number.toInt :=
    Text.map_readInteger_eq_ok_iff Int64.ofInt_toInt
      (fun _ least most => Int64.toInt_ofInt_of_le least (Int.lt_add_one_of_le most))
      (fun number => ⟨number.le_toInt, Int.le_of_lt_add_one number.toInt_lt⟩)
  have is_mark : isLongMark mark = true := by rcases marked with rfl | rfl <;> rfl
  simp only [← read_iff, readArgumentChars, List.getLast?_concat, Option.any_some, is_mark, if_true,
    List.dropLast_concat]
  cases Text.readInteger 0x8000000000000000 0x7FFFFFFFFFFFFFFF numeral with
  | error cause => simp [Except.map]
  | ok number => simp [Except.map, eq_comm]

/-- What is read is an `int` or, from a marked text, a `long`. -/
theorem readArgumentChars_eq_ok_iff {value : Machine.Value} :
    readArgumentChars chars = .ok value ↔
      (∃ number : Int32, value = .int number ∧ Numeral chars number.toInt) ∨
        ∃ number : Int64, value = .long number ∧ MarkedNumeral chars number.toInt := by
  cases marked : chars.getLast?.any isLongMark with
  | false =>
      rw [readArgumentChars_unmarked marked]
      refine ⟨.inl, fun reads => reads.elim id ?_⟩
      rintro ⟨_, -, numeral, mark, rfl, is_mark, -⟩
      rcases is_mark with rfl | rfl <;> simp [isLongMark] at marked
  | true =>
      obtain ⟨mark, ends, is_mark⟩ := (Option.any_eq_true ..).mp marked
      obtain ⟨numeral, rfl⟩ := List.getLast?_eq_some_iff.mp ends
      have mark_eq : mark = 'L' ∨ mark = 'l' := by simpa [isLongMark] using is_mark
      rw [readArgumentChars_marked mark_eq]
      constructor
      · rintro ⟨number, rfl, reads⟩
        exact .inr ⟨number, rfl, numeral, mark, rfl, mark_eq, reads⟩
      · rintro (⟨_, -, reads⟩ | ⟨number, rfl, other, _, chars_eq, -, reads⟩)
        · rw [not_any_isLongMark reads] at marked
          cases marked
        · obtain ⟨rfl, -⟩ := List.append_inj' chars_eq rfl
          exact ⟨number, rfl, reads⟩

/-- Nothing is read from a text that is no numeral of any number in range. -/
theorem readArgumentChars_error_iff :
    (∃ error, readArgumentChars chars = .error error) ↔
      (¬∃ value, Numeral chars value ∧ -2 ^ 31 ≤ value ∧ value < 2 ^ 31) ∧
        ¬∃ value, MarkedNumeral chars value ∧ -2 ^ 63 ≤ value ∧ value < 2 ^ 63 := by
  constructor
  · rintro ⟨error, refused⟩
    constructor
    · rintro ⟨value, numeral, least, most⟩
      rw [← Int32.toInt_ofInt_of_le least most] at numeral
      cases refused.symm.trans (readArgumentChars_eq_ok_iff.mpr (.inl ⟨_, rfl, numeral⟩))
    · rintro ⟨value, numeral, least, most⟩
      rw [← Int64.toInt_ofInt_of_le least most] at numeral
      cases refused.symm.trans (readArgumentChars_eq_ok_iff.mpr (.inr ⟨_, rfl, numeral⟩))
  · rintro ⟨no_int, no_long⟩
    cases read : readArgumentChars chars with
    | error error => exact ⟨error, rfl⟩
    | ok value =>
        rcases readArgumentChars_eq_ok_iff.mp read with
          ⟨number, -, numeral⟩ | ⟨number, -, numeral⟩
        · exact absurd ⟨_, numeral, number.le_toInt, number.toInt_lt⟩ no_int
        · exact absurd ⟨_, numeral, number.le_toInt, number.toInt_lt⟩ no_long

/-- A text without blanks is read as it is. -/
theorem readArgument_ofList (visible : ∀ char ∈ chars, Text.isBlank char = false) :
    readArgument (String.ofList chars) = readArgumentChars chars := by
  have tight : Text.Tight chars :=
    ⟨fun char leads => visible char (List.mem_of_head? leads),
      fun char ends => visible char (List.mem_of_getLast? ends)⟩
  rw [readArgument, String.toList_ofList, Text.trimChars_eq_self_iff.mpr tight]

/-- Of every text, what is left without the blanks around it decides what is read: an `int` if and
only if it is a numeral of its value, a `long` if and only if it is a marked numeral of its value,
and nothing if and only if it is no numeral in range.  So the decimal numeral of every `int` is read
back, and with a mark that of every `long`. -/
theorem readArgument_exact (text : String) :
    (∃ before word after, text.toList = before ++ word ++ after ∧
      (∀ char ∈ before ++ after, Text.isBlank char) ∧ Text.Tight word ∧
      (∀ number : Int32, readArgument text = .ok (.int number) ↔ Numeral word number.toInt) ∧
      (∀ number : Int64, readArgument text = .ok (.long number) ↔
        MarkedNumeral word number.toInt) ∧
      ((∃ error, readArgument text = .error error) ↔
        (¬∃ value, Numeral word value ∧ -2 ^ 31 ≤ value ∧ value < 2 ^ 31) ∧
          ¬∃ value, MarkedNumeral word value ∧ -2 ^ 63 ≤ value ∧ value < 2 ^ 63)) ∧
      (∀ number : Int32, readArgument (Text.decimal number.toInt) = .ok (.int number)) ∧
      ∀ number : Int64, readArgument (Text.decimal number.toInt ++ "L") = .ok (.long number) := by
  obtain ⟨before, after, text_eq, blank⟩ := Text.exists_blanks_around text.toList
  refine ⟨⟨before, _, after, text_eq, blank, Text.tight_trimChars _, fun number => ?_,
    fun number => ?_, readArgumentChars_error_iff⟩, fun number => ?_, fun number => ?_⟩
  · rw [readArgument, readArgumentChars_eq_ok_iff]
    simp
  · rw [readArgument, readArgumentChars_eq_ok_iff]
    simp
  · have numeral := Text.numeral_decimal number.toInt
    rw [← String.ofList_toList (s := Text.decimal _), readArgument_ofList numeral.isBlank_of_mem,
      readArgumentChars_eq_ok_iff]
    exact .inl ⟨number, rfl, numeral⟩
  · have numeral := Text.numeral_decimal number.toInt
    rw [← String.ofList_toList (s := Text.decimal _ ++ "L"), String.toList_append,
      readArgument_ofList, readArgumentChars_eq_ok_iff]
    · exact .inr ⟨number, rfl, _, 'L', rfl, .inl rfl, numeral⟩
    · exact List.forall_mem_append.mpr ⟨numeral.isBlank_of_mem, by simp [Text.isBlank]⟩

example :
    readArgument " -2147483648" = .ok (.int Int32.minValue) ∧
      readArgument "2147483648" = .error ⟨false, "2147483648", .tooLarge⟩ := by
  decide +kernel

end CommandLine
end MethodTracing
