import Mathlib.Data.List.Forall2
import MethodTracing.Proofs.Annotation.Names
import MethodTracing.Selection

/-!
# Spellings of class names

A class name is written with dots or with slashes, bare or in a wrapper, and with blanks around it.
Sets of annotations, markers and questions put to them see only the name.

Main statement: what a set holds, and which methods settings select, in terms of the names alone.
-/

namespace MethodTracing

/-- The name of a class in dotted form. -/
@[ext]
structure ClassName where
  /-- The name. -/
  text : String
  inhabited : text.toList ≠ []
  no_slash : '/' ∉ text.toList
  no_semicolon : ';' ∉ text.toList
  tight : Text.Tight text.toList

/-- A text in which some of the dots of a name are written as slashes. -/
def Slashed (name written : List Char) : Prop :=
  List.Forall₂ (fun char shown => shown = char ∨ char = '.' ∧ shown = '/') name written

theorem slashed_iff {name written : List Char} (no_slash : '/' ∉ name) :
    Slashed name written ↔ written.map dottedChar = name := by
  constructor
  · intro slashed
    induction slashed with
    | nil => rfl
    | @cons char shown name written shown_eq _ ih =>
        rw [List.mem_cons, not_or] at no_slash
        rw [List.map_cons, ih no_slash.2, List.cons.injEq]
        refine ⟨?_, rfl⟩
        rcases shown_eq with rfl | ⟨rfl, rfl⟩
        · exact if_neg (Ne.symm no_slash.1)
        · rfl
  · rintro rfl
    rw [Slashed, List.forall₂_map_left_iff, List.forall₂_same]
    intro char _
    by_cases slash : char = '/'
    · exact Or.inr ⟨by rw [slash]; rfl, slash⟩
    · exact Or.inl (if_neg slash).symm

namespace ClassName

variable {name : ClassName}

/-- The ways to write a class name. -/
inductive Spells (name : ClassName) : String → Prop
  /-- With blanks around it. -/
  | bare {before written after : List Char} : (∀ char ∈ before, Text.isBlank char) →
      Slashed name.text.toList written → (∀ char ∈ after, Text.isBlank char) →
      Spells name (String.ofList (before ++ written ++ after))
  /-- With a wrapper and blanks around it. -/
  | wrapped {before written after : List Char} : (∀ char ∈ before, Text.isBlank char) →
      Slashed name.text.toList written → (∀ char ∈ after, Text.isBlank char) →
      Spells name (String.ofList (before ++ wrapName written ++ after))

theorem tight_written {written : List Char} (slashed : Slashed name.text.toList written) :
    Text.Tight written := by
  have dotted_eq := (slashed_iff name.no_slash).mp slashed
  constructor
  · intro char leads
    rw [← isBlank_dottedChar]
    apply name.tight.head
    rw [← dotted_eq, List.head?_map, leads]
    rfl
  · intro char ends
    rw [← isBlank_dottedChar]
    apply name.tight.last
    rw [← dotted_eq, List.getLast?_map, ends]
    rfl

theorem bare_written {written : List Char} (slashed : Slashed name.text.toList written) :
    ∀ inner, written ≠ wrapName inner := by
  rintro inner rfl
  apply name.no_semicolon
  rw [← (slashed_iff name.no_slash).mp slashed]
  exact List.mem_map.mpr ⟨';', by simp [wrapName], rfl⟩

theorem tight_wrapName (inner : List Char) : Text.Tight (wrapName inner) := by
  constructor
  · rintro char ⟨⟩
    rfl
  · intro char ends
    rw [wrapName, ← List.cons_append, List.getLast?_concat] at ends
    obtain rfl := Option.some.inj ends
    rfl

/-- Every spelling of a name is brought to the name. -/
theorem Spells.normalizeName_eq {spelling : String} (spells : name.Spells spelling) :
    normalizeName spelling = name.text := by
  rw [← String.toList_inj, toList_normalizeName]
  cases spells with
  | bare blank_before slashed blank_after =>
      rw [String.toList_ofList,
        Text.trimChars_append (tight_written slashed) blank_before blank_after,
        unwrapName_of_bare (bare_written slashed), (slashed_iff name.no_slash).mp slashed]
  | wrapped blank_before slashed blank_after =>
      rw [String.toList_ofList,
        Text.trimChars_append (tight_wrapName _) blank_before blank_after,
        unwrapName_wrapName, (slashed_iff name.no_slash).mp slashed]

theorem spells_text (name : ClassName) : name.Spells name.text := by
  have unchanged : Slashed name.text.toList name.text.toList :=
    List.forall₂_same.mpr fun char _ => Or.inl rfl
  have alone : name.Spells (String.ofList ([] ++ name.text.toList ++ [])) :=
    .bare (by simp) unchanged (by simp)
  simpa using alone

theorem normalizeName_text (name : ClassName) : normalizeName name.text = name.text :=
  name.spells_text.normalizeName_eq

theorem text_injective : Function.Injective ClassName.text :=
  fun _ _ => ClassName.ext

theorem map_normalizeName {names : List ClassName} {spellings : List String}
    (spelled : List.Forall₂ Spells names spellings) :
    spellings.map normalizeName = names.map ClassName.text := by
  induction spelled with
  | nil => rfl
  | cons spells _ ih => rw [List.map_cons, List.map_cons, spells.normalizeName_eq, ih]

end ClassName

/-! ## Sets of annotations and selection -/

section Spelled

variable {names markers : List ClassName} {spellings : List String} {declaration : Declaration}
  {settings : Settings}

theorem names_spelled (inserted : List.Forall₂ ClassName.Spells names spellings) :
    (AnnotationSet.ofList spellings).names = (names.map ClassName.text).eraseDups := by
  rw [AnnotationSet.names_ofList, ClassName.map_normalizeName inserted]

theorem contains_spelled (inserted : List.Forall₂ ClassName.Spells names spellings)
    (name : ClassName) {spelling : String} (spells : name.Spells spelling) :
    (AnnotationSet.ofList spellings).contains spelling ↔ name ∈ names := by
  rw [AnnotationSet.contains_ofList, ClassName.map_normalizeName inserted,
    spells.normalizeName_eq, List.mem_map_of_injective ClassName.text_injective]

theorem isTraced_spelled (inserted : List.Forall₂ ClassName.Spells names spellings)
    (annotations_eq : declaration.annotations = .ofList spellings) :
    declaration.isTraced ↔ ∃ name ∈ names, name.text = tracedTag := by
  have tag_normal : normalizeName tracedTag = tracedTag := by decide
  rw [Declaration.isTraced, annotations_eq, AnnotationSet.contains_ofList,
    ClassName.map_normalizeName inserted, tag_normal, List.mem_map]

theorem marks_spelled (inserted : List.Forall₂ ClassName.Spells names spellings)
    (annotations_eq : declaration.annotations = .ofList spellings)
    (marked : List.Forall₂ ClassName.Spells markers settings.markers) :
    settings.marks declaration ↔ ∃ name ∈ names, name ∈ markers := by
  rw [Settings.marks_iff, annotations_eq, names_spelled inserted,
    ClassName.map_normalizeName marked]
  constructor
  · rintro ⟨_, stored, marker⟩
    obtain ⟨name, member, rfl⟩ := List.mem_map.mp (List.mem_eraseDups.mp stored)
    rw [name.normalizeName_text, List.mem_map_of_injective ClassName.text_injective] at marker
    exact ⟨name, member, marker⟩
  · rintro ⟨name, member, marker⟩
    refine ⟨name.text, List.mem_eraseDups.mpr (List.mem_map_of_mem member), ?_⟩
    rwa [name.normalizeName_text, List.mem_map_of_injective ClassName.text_injective]

/-- Settings and sets of annotations look at names, whatever their spellings: a method is selected if
it is a function of known type that is not traced and carries a marker, and its set holds the names
that were inserted, in the order in which they first came. -/
theorem Settings.selects_spelled (inserted : List.Forall₂ ClassName.Spells names spellings)
    (annotations_eq : declaration.annotations = .ofList spellings)
    (marked : List.Forall₂ ClassName.Spells markers settings.markers) :
    (settings.selects declaration ↔
      settings.enabled ∧ declaration.kind = .function ∧ declaration.type.isSome ∧
        (∀ name ∈ names, name.text ≠ tracedTag) ∧ ∃ name ∈ names, name ∈ markers) ∧
    declaration.annotations.names = (names.map ClassName.text).eraseDups ∧
    ∀ (name : ClassName) (spelling : String), name.Spells spelling →
      (declaration.annotations.contains spelling ↔ name ∈ names) := by
  refine ⟨?_, ?_, fun name spelling spells => ?_⟩
  · rw [selects_iff, isTraced_spelled inserted annotations_eq,
      marks_spelled inserted annotations_eq marked]
    simp only [not_exists, not_and, ne_eq]
  · rw [annotations_eq, names_spelled inserted]
  · rw [annotations_eq, contains_spelled inserted name spells]

end Spelled

/-- A name that begins like a wrapper. -/
def ClassName.lord : ClassName :=
  ⟨"Lord", by decide, by decide, by decide, by decide⟩

/-- A name with a dot. -/
def ClassName.ledger : ClassName :=
  ⟨"org.Ledger", by decide, by decide, by decide, by decide⟩

/-- A function with three annotations, two of which are one. -/
def Declaration.lordly : Declaration :=
  { owner := "Api", name := "rule", type := some ⟨[], none⟩, access := ⟨0⟩, kind := .function
    annotations := .ofList [" Lord\n", "Lorg/Ledger;", "LLord;"] }

/-- Settings with one marker. -/
def Settings.lordly : Settings := ⟨true, ["\torg/Ledger"]⟩

theorem Settings.selects_spelled_lordly :
    List.Forall₂ ClassName.Spells [.lord, .ledger, .lord] [" Lord\n", "Lorg/Ledger;", "LLord;"] ∧
    Declaration.lordly.annotations = .ofList [" Lord\n", "Lorg/Ledger;", "LLord;"] ∧
    List.Forall₂ ClassName.Spells [.ledger] lordly.markers ∧
    (lordly.selects Declaration.lordly ↔
      lordly.enabled ∧ Declaration.lordly.kind = .function ∧ Declaration.lordly.type.isSome ∧
        (∀ name ∈ [ClassName.lord, .ledger, .lord], name.text ≠ tracedTag) ∧
        ∃ name ∈ [ClassName.lord, .ledger, .lord], name ∈ [ClassName.ledger]) ∧
    Declaration.lordly.annotations.names =
      ([ClassName.lord, .ledger, .lord].map ClassName.text).eraseDups ∧
    ∀ (name : ClassName) (spelling : String), name.Spells spelling →
      (Declaration.lordly.annotations.contains spelling ↔
        name ∈ [ClassName.lord, .ledger, .lord]) := by
  have lord_slashed : Slashed ClassName.lord.text.toList "Lord".toList :=
    (slashed_iff ClassName.lord.no_slash).mpr (by decide)
  have ledger_slashed : Slashed ClassName.ledger.text.toList "org/Ledger".toList :=
    (slashed_iff ClassName.ledger.no_slash).mpr (by decide)
  have lord_bare : ClassName.lord.Spells (String.ofList ([' '] ++ "Lord".toList ++ ['\n'])) :=
    .bare (List.all_eq_true.mp rfl) lord_slashed (List.all_eq_true.mp rfl)
  have lord_wrapped : ClassName.lord.Spells (String.ofList ([] ++ wrapName "Lord".toList ++ [])) :=
    .wrapped (by simp) lord_slashed (by simp)
  have ledger_bare : ClassName.ledger.Spells
      (String.ofList (['\t'] ++ "org/Ledger".toList ++ [])) :=
    .bare (List.all_eq_true.mp rfl) ledger_slashed (by simp)
  have ledger_wrapped : ClassName.ledger.Spells
      (String.ofList ([] ++ wrapName "org/Ledger".toList ++ [])) :=
    .wrapped (by simp) ledger_slashed (by simp)
  have inserted : List.Forall₂ ClassName.Spells [.lord, .ledger, .lord]
      [" Lord\n", "Lorg/Ledger;", "LLord;"] :=
    .cons lord_bare (.cons ledger_wrapped (.cons lord_wrapped .nil))
  have annotations_eq : Declaration.lordly.annotations =
      .ofList [" Lord\n", "Lorg/Ledger;", "LLord;"] := by simp only [Declaration.lordly]
  have marked : List.Forall₂ ClassName.Spells [.ledger] lordly.markers := .cons ledger_bare .nil
  exact ⟨inserted, annotations_eq, marked, selects_spelled inserted annotations_eq marked⟩

end MethodTracing
