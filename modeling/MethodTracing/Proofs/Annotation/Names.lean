import Mathlib.Data.List.DropRight
import Mathlib.Data.List.TFAE
import Mathlib.Tactic.TFAE
import MethodTracing.Annotation

/-!
# Names in dotted form

The blanks around a name and one wrapper `L…;` are removed together, so that what stood inside the
wrapper is not looked at again: there may be blanks at its ends, or another wrapper.

Main statement: the names that a set stores stay as they are when the set is rebuilt from them if
and only if no inserted name had a wrapper around such a text.
-/

namespace MethodTracing

/-! ## Blanks -/

namespace Text

/-- There are no blanks at the ends. -/
structure Tight (chars : List Char) : Prop where
  head : ∀ char, chars.head? = some char → isBlank char = false
  last : ∀ char, chars.getLast? = some char → isBlank char = false

variable {chars : List Char}

theorem dropWhile_blanks {blanks : List Char} (blank : ∀ char ∈ blanks, isBlank char)
    (head : ∀ char, chars.head? = some char → isBlank char = false) :
    (blanks ++ chars).dropWhile isBlank = chars := by
  rw [List.dropWhile_append_of_pos blank]
  cases chars with
  | nil => rfl
  | cons first rest => rw [List.dropWhile_cons_of_neg (by simp [head first rfl])]

theorem trimChars_sublist (chars : List Char) : (trimChars chars).Sublist chars :=
  (List.rdropWhile_prefix isBlank (chars.dropWhile isBlank)).sublist.trans
    (List.dropWhile_sublist isBlank)

theorem tight_trimChars (chars : List Char) : Tight (trimChars chars) := by
  have first_drop := List.head?_dropWhile_not isBlank chars
  have second_drop := List.head?_dropWhile_not isBlank (chars.dropWhile isBlank).reverse
  constructor
  · intro char leads
    have kept : trimChars chars <+: chars.dropWhile isBlank := List.rdropWhile_prefix _ _
    have leads_before : (chars.dropWhile isBlank).head? = some char := by
      obtain ⟨rest, dropped_eq⟩ := kept
      rw [← dropped_eq, List.head?_append, leads]
      rfl
    simpa [leads_before] using first_drop
  · intro char ends
    rw [trimChars, List.getLast?_reverse] at ends
    simpa [ends] using second_drop

/-- Blanks are removed at the ends only. -/
theorem exists_blanks_around (chars : List Char) :
    ∃ before after, chars = before ++ trimChars chars ++ after ∧
      ∀ char ∈ before ++ after, isBlank char := by
  have after_eq : trimChars chars ++ (chars.dropWhile isBlank).rtakeWhile isBlank =
      chars.dropWhile isBlank := List.rdropWhile_append_rtakeWhile ..
  refine ⟨chars.takeWhile isBlank, (chars.dropWhile isBlank).rtakeWhile isBlank, ?_, ?_⟩
  · rw [List.append_assoc, after_eq, List.takeWhile_append_dropWhile]
  · exact List.forall_mem_append.mpr ⟨fun _ member => List.mem_takeWhile_imp member,
      fun _ member => List.mem_rtakeWhile_imp member⟩

/-- What blanks surround is left when they are removed. -/
theorem trimChars_append {before after : List Char} (tight : Tight chars)
    (blank_before : ∀ char ∈ before, isBlank char) (blank_after : ∀ char ∈ after, isBlank char) :
    trimChars (before ++ chars ++ after) = chars := by
  have blank_reversed : ∀ char ∈ after.reverse, isBlank char := fun char member =>
    blank_after char (List.mem_reverse.mp member)
  by_cases empty : chars = []
  · have all_blank : ∀ char ∈ before ++ after, isBlank char := fun char member =>
      (List.mem_append.mp member).elim (blank_before char) (blank_after char)
    rw [empty, List.append_nil, trimChars, List.dropWhile_eq_nil_iff.mpr all_blank]
    rfl
  · have head : ∀ char, (chars ++ after).head? = some char → isBlank char = false := by
      rw [List.head?_append_of_ne_nil _ empty]
      exact tight.head
    have last : ∀ char, chars.reverse.head? = some char → isBlank char = false := by
      rw [List.head?_reverse]
      exact tight.last
    rw [trimChars, List.append_assoc, dropWhile_blanks blank_before head, List.reverse_append,
      dropWhile_blanks blank_reversed last, List.reverse_reverse]

theorem trimChars_eq_self_iff : trimChars chars = chars ↔ Tight chars := by
  constructor
  · intro same
    exact same ▸ tight_trimChars chars
  · intro tight
    have alone : trimChars ([] ++ chars ++ []) = chars :=
      trimChars_append tight (by simp) (by simp)
    simpa using alone

instance (chars : List Char) : Decidable (Tight chars) :=
  decidable_of_iff (trimChars chars = chars) trimChars_eq_self_iff

end Text

/-! ## Wrappers -/

/-- A text with a wrapper around it. -/
def wrapName (inner : List Char) : List Char :=
  'L' :: (inner ++ [';'])

@[simp]
theorem unwrapName_wrapName (inner : List Char) : unwrapName (wrapName inner) = inner := by
  simp [unwrapName, wrapName]

/-- A text without a wrapper is left alone. -/
theorem unwrapName_of_bare {chars : List Char} (bare : ∀ inner, chars ≠ wrapName inner) :
    unwrapName chars = chars := by
  unfold unwrapName
  split
  · rename_i rest
    split
    · rename_i ends
      obtain ⟨inner, rest_eq⟩ := List.getLast?_eq_some_iff.mp ends
      exact absurd (by rw [rest_eq, wrapName]) (bare inner)
    · rfl
  · rfl

theorem unwrapName_sublist (chars : List Char) : (unwrapName chars).Sublist chars := by
  by_cases wrapped : ∃ inner, chars = wrapName inner
  · obtain ⟨inner, rfl⟩ := wrapped
    rw [unwrapName_wrapName]
    exact (List.sublist_append_left inner [';']).cons 'L'
  · rw [unwrapName_of_bare (not_exists.mp wrapped)]

theorem unwrapName_eq_self_iff {chars : List Char} :
    unwrapName chars = chars ↔ ∀ inner, chars ≠ wrapName inner := by
  constructor
  · rintro same inner rfl
    rw [unwrapName_wrapName] at same
    have lengths := congrArg List.length same
    simp only [wrapName, List.length_cons, List.length_append, List.length_nil] at lengths
    omega
  · exact unwrapName_of_bare

/-! ## Dots -/

/-- A slash is written as a dot. -/
def dottedChar (char : Char) : Char :=
  if char = '/' then '.' else char

theorem toList_dotted (name : String) : (dotted name).toList = name.toList.map dottedChar := by
  rw [dotted, String.toList_ofList]
  rfl

@[simp]
theorem dottedChar_dottedChar (char : Char) : dottedChar (dottedChar char) = dottedChar char := by
  by_cases slash : char = '/'
  · simp [dottedChar, slash]
  · simp [dottedChar, slash]

@[simp]
theorem isBlank_dottedChar (char : Char) :
    Text.isBlank (dottedChar char) = Text.isBlank char := by
  by_cases slash : char = '/'
  · rw [slash]
    rfl
  · rw [dottedChar, if_neg slash]

theorem dottedChar_eq_iff {char other : Char} (not_dot : other ≠ '.') (not_slash : other ≠ '/') :
    dottedChar char = other ↔ char = other := by
  by_cases slash : char = '/'
  · simp [dottedChar, slash, not_dot.symm, not_slash.symm]
  · simp [dottedChar, slash]

theorem trimChars_map_dotted (chars : List Char) :
    Text.trimChars (chars.map dottedChar) = (Text.trimChars chars).map dottedChar := by
  have blank_eq : Text.isBlank ∘ dottedChar = Text.isBlank := funext isBlank_dottedChar
  simp only [Text.trimChars, List.dropWhile_map, ← List.map_reverse, blank_eq]

/-- Dots and slashes make no wrapper. -/
theorem exists_wrapped_of_map {chars inner : List Char}
    (wrapped : chars.map dottedChar = wrapName inner) : ∃ core, chars = wrapName core := by
  rw [wrapName, List.map_eq_cons_iff] at wrapped
  obtain ⟨first, rest, rfl, first_eq, wrapped⟩ := wrapped
  obtain ⟨core, ending, rfl, -, ending_eq⟩ := List.map_eq_append_iff.mp wrapped
  obtain ⟨last, rfl, last_eq⟩ := List.map_eq_singleton_iff.mp ending_eq
  rw [dottedChar_eq_iff (by decide) (by decide)] at first_eq last_eq
  exact ⟨core, by rw [first_eq, last_eq, wrapName]⟩

theorem unwrapName_map_dotted (chars : List Char) :
    unwrapName (chars.map dottedChar) = (unwrapName chars).map dottedChar := by
  by_cases wrapped : ∃ inner, chars = wrapName inner
  · obtain ⟨inner, rfl⟩ := wrapped
    have dotted_eq : (wrapName inner).map dottedChar = wrapName (inner.map dottedChar) := by
      simp [wrapName, dottedChar]
    rw [dotted_eq, unwrapName_wrapName, unwrapName_wrapName]
  · rw [unwrapName_of_bare (not_exists.mp wrapped), unwrapName_of_bare]
    intro inner dotted_eq
    exact wrapped (exists_wrapped_of_map dotted_eq)

/-! ## Normal form -/

theorem toList_normalizeName (name : String) :
    (normalizeName name).toList =
      (unwrapName (Text.trimChars name.toList)).map dottedChar := by
  rw [normalizeName, toList_dotted, String.toList_ofList]

/-- Only the blanks and the wrapper inside the first wrapper are left for a second time. -/
theorem toList_normalizeName_twice (name : String) :
    (normalizeName (normalizeName name)).toList =
      (unwrapName (Text.trimChars (unwrapName (Text.trimChars name.toList)))).map dottedChar := by
  rw [toList_normalizeName, toList_normalizeName, trimChars_map_dotted, unwrapName_map_dotted,
    List.map_map]
  exact List.map_congr_left fun char _ => dottedChar_dottedChar char

/-- A name with a wrapper around a text that has blanks at an end or another wrapper. -/
def Layered (name : String) : Prop :=
  ∃ inner, Text.trimChars name.toList = wrapName inner ∧
    (¬Text.Tight inner ∨ ∃ core, inner = wrapName core)

/-- Removing blanks and a wrapper changes nothing if there are none of either. -/
theorem unwrapName_trimChars_eq_self_iff {chars : List Char} :
    unwrapName (Text.trimChars chars) = chars ↔
      Text.Tight chars ∧ ∀ inner, chars ≠ wrapName inner := by
  rw [← Text.trimChars_eq_self_iff, ← unwrapName_eq_self_iff]
  constructor
  · intro same
    have shorter := (unwrapName_sublist (Text.trimChars chars)).length_le
    have tight : Text.trimChars chars = chars :=
      (Text.trimChars_sublist chars).eq_of_length_le (by rwa [same] at shorter)
    exact ⟨tight, by rwa [tight] at same⟩
  · rintro ⟨tight, bare⟩
    rw [tight, bare]

theorem normalizeName_normalizeName_iff (name : String) :
    normalizeName (normalizeName name) = normalizeName name ↔ ¬Layered name := by
  have same_iff : ∀ core : List Char,
      (unwrapName (Text.trimChars core)).map dottedChar = core.map dottedChar ↔
        unwrapName (Text.trimChars core) = core := by
    intro core
    refine ⟨fun same => ?_, fun same => by rw [same]⟩
    have sublist := (unwrapName_sublist (Text.trimChars core)).trans (Text.trimChars_sublist core)
    have lengths := congrArg List.length same
    rw [List.length_map, List.length_map] at lengths
    exact sublist.eq_of_length lengths
  rw [← String.toList_inj, toList_normalizeName_twice, toList_normalizeName, same_iff,
    unwrapName_trimChars_eq_self_iff]
  by_cases wrapped : ∃ inner, Text.trimChars name.toList = wrapName inner
  · obtain ⟨inner, shown⟩ := wrapped
    have layered_iff : Layered name ↔ ¬Text.Tight inner ∨ ∃ core, inner = wrapName core := by
      constructor
      · rintro ⟨other, shown_again, layered⟩
        have same := congrArg unwrapName (shown.symm.trans shown_again)
        rw [unwrapName_wrapName, unwrapName_wrapName] at same
        rwa [same]
      · exact fun layered => ⟨inner, shown, layered⟩
    rw [layered_iff, shown, unwrapName_wrapName, not_or, not_not, not_exists]
  · have bare : ∀ inner, Text.trimChars name.toList ≠ wrapName inner := not_exists.mp wrapped
    have not_layered : ¬Layered name := fun ⟨inner, shown, _⟩ => bare inner shown
    rw [unwrapName_of_bare bare]
    exact ⟨fun _ => not_layered, fun _ => ⟨Text.tight_trimChars _, bare⟩⟩

/-! ## First occurrences -/

section FirstOccurrences

variable {α : Type} [DecidableEq α]

theorem eraseDups_concat (values : List α) (value : α) :
    (values ++ [value]).eraseDups =
      if value ∈ values then values.eraseDups else values.eraseDups ++ [value] := by
  rw [List.eraseDups_append]
  by_cases known : value ∈ values
  · simp [List.removeAll, known]
  · simp [List.removeAll, known, List.eraseDups_cons]

theorem eraseDups_sublist (values : List α) : values.eraseDups.Sublist values := by
  induction values using List.reverseRecOn with
  | nil => exact .slnil
  | append_singleton values value ih =>
      rw [eraseDups_concat]
      split
      · exact ih.trans (List.sublist_append_left _ _)
      · exact ih.append (List.Sublist.refl _)

theorem nodup_eraseDups (values : List α) : values.eraseDups.Nodup := by
  induction values using List.reverseRecOn with
  | nil => exact List.nodup_nil
  | append_singleton values value ih =>
      rw [eraseDups_concat]
      split
      · exact ih
      · rename_i fresh
        refine List.nodup_append.mpr ⟨ih, List.pairwise_singleton _ _, ?_⟩
        rintro other member last is_last rfl
        rw [List.mem_singleton.mp is_last, List.mem_eraseDups] at member
        exact fresh member

theorem eraseDups_of_nodup {values : List α} (distinct : values.Nodup) :
    values.eraseDups = values := by
  induction values using List.reverseRecOn with
  | nil => rfl
  | append_singleton values value ih =>
      obtain ⟨earlier, -, apart⟩ := List.nodup_append.mp distinct
      have fresh : value ∉ values := fun again =>
        apart value again value List.mem_cons_self rfl
      rw [eraseDups_concat, if_neg fresh, ih earlier]

end FirstOccurrences

/-! ## Sets of names -/

namespace AnnotationSet

/-- A set that was filled name by name holds the inserted names in dotted form, in the order in
which they first came. -/
theorem names_ofList (names : List String) :
    (ofList names).names = (names.map normalizeName).eraseDups := by
  induction names using List.reverseRecOn with
  | nil => rfl
  | append_singleton names name ih =>
      have inserted : ofList (names ++ [name]) = (ofList names).insert name := by
        rw [ofList, List.foldl_append]
        rfl
      rw [inserted, List.map_append, List.map_singleton, eraseDups_concat, insert, contains, ih]
      by_cases known : normalizeName name ∈ names.map normalizeName
      · rw [if_pos (by simpa using known), if_pos known, ih]
      · rw [if_neg (by simpa using known), if_neg known]

theorem contains_ofList {names : List String} {name : String} :
    (ofList names).contains name ↔ normalizeName name ∈ names.map normalizeName := by
  rw [contains, List.contains_iff_mem, names_ofList, List.mem_eraseDups]

/-- The names from which a set is rebuilt as it is are distinct and in dotted form. -/
theorem names_ofList_eq_self_iff {names : List String} :
    (ofList names).names = names ↔
      names.Nodup ∧ ∀ name ∈ names, normalizeName name = name := by
  rw [names_ofList]
  constructor
  · intro same
    have as_long : (names.map normalizeName).length ≤
        (names.map normalizeName).eraseDups.length := by rw [same, List.length_map]
    have all_kept := (eraseDups_sublist (names.map normalizeName)).eq_of_length_le as_long
    refine ⟨same ▸ nodup_eraseDups _, List.map_inj_left.mp ?_⟩
    rw [← all_kept, same, List.map_id']
  · rintro ⟨distinct, normal⟩
    rw [List.map_congr_left normal, List.map_id', eraseDups_of_nodup distinct]

/-- When a set survives being saved as its names and filled from them again: the names that it
stores have to be in their final form, and they are if no inserted name hides a further wrapper, or
blanks, inside its wrapper. -/
theorem reload_tfae (names : List String) :
    [ofList (ofList names).names = ofList names ∧
        ∀ name ∈ (ofList names).names, (ofList names).contains name,
      ∀ name ∈ (ofList names).names, normalizeName name = name,
      ∀ name ∈ names, ¬Layered name].TFAE := by
  have distinct : (ofList names).names.Nodup := by
    rw [names_ofList]
    exact nodup_eraseDups _
  tfae_have 1 → 2 := by
    rintro ⟨same, -⟩
    exact (names_ofList_eq_self_iff.mp (congrArg AnnotationSet.names same)).2
  tfae_have 2 → 1 := by
    intro normal
    have same : (ofList (ofList names).names).names = (ofList names).names :=
      names_ofList_eq_self_iff.mpr ⟨distinct, normal⟩
    refine ⟨congrArg AnnotationSet.mk same, fun name member => ?_⟩
    rw [contains, List.contains_iff_mem, normal name member]
    exact member
  tfae_have 2 ↔ 3 := by
    simp only [names_ofList, List.mem_eraseDups, List.forall_mem_map,
      normalizeName_normalizeName_iff]
  tfae_finish

/-- A wrapper around another one is removed alone: what is stored is no dotted name, is not
found in the set again, and becomes another name when the set is filled from its names. -/
theorem not_reload_layered :
    (ofList ["LLorg/example/DebugLog;;"]).names = ["Lorg.example.DebugLog;"] ∧
      (ofList ["LLorg/example/DebugLog;;"]).contains "Lorg.example.DebugLog;" = false ∧
      (ofList (ofList ["LLorg/example/DebugLog;;"]).names).names = ["org.example.DebugLog"] ∧
      ofList (ofList ["LLorg/example/DebugLog;;"]).names ≠ ofList ["LLorg/example/DebugLog;;"] := by
  decide +kernel

end AnnotationSet

end MethodTracing
