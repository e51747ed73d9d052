import Mathlib.Algebra.GroupWithZero.Nat
import MethodTracing.Assembly.Chain
import MethodTracing.Proofs.Weaving.Layout

/-!
# Settings in succession

What several settings make of a class when they are applied one after another.  The first settings
that select a method instrument and mark it, and a marked method is left alone by all others: so it
matters which declarations some settings select, and nothing else.
-/

namespace MethodTracing

theorem AnnotationSet.contains_insert (annotations : AnnotationSet) (name : String) :
    (annotations.insert name).contains name = true := by
  unfold insert
  split
  · assumption
  · simp [contains]

/-- Whether one of several settings selects a declaration. -/
def Declaration.isSelectedBy (declaration : Declaration) (passes : List Settings) : Bool :=
  passes.any fun settings => settings.selects declaration

/-- No settings select a method that is marked as woven. -/
theorem Settings.not_selects_tagTraced (settings : Settings) (declaration : Declaration) :
    settings.selects declaration.tagTraced = false := by
  have traced : declaration.tagTraced.isTraced = true :=
    AnnotationSet.contains_insert declaration.annotations tracedTag
  rw [Bool.eq_false_iff, Ne, selects_iff]
  exact fun ⟨_, _, _, untraced, _⟩ => untraced traced

namespace Declaration

@[simp]
theorem isSelectedBy_nil (declaration : Declaration) : declaration.isSelectedBy [] = false := rfl

@[simp]
theorem isSelectedBy_cons (declaration : Declaration) (settings : Settings)
    (passes : List Settings) :
    declaration.isSelectedBy (settings :: passes) =
      (settings.selects declaration || declaration.isSelectedBy passes) := rfl

@[simp]
theorem isSelectedBy_tagTraced (declaration : Declaration) (passes : List Settings) :
    declaration.tagTraced.isSelectedBy passes = false := by
  simp [isSelectedBy, Settings.not_selects_tagTraced]

end Declaration

namespace Method

/-- A method as settings leave it that are applied one after another. -/
def wovenBy (passes : List Settings) (method : Method) : Method :=
  if method.declaration.isSelectedBy passes then method.instrument.method.tagTraced else method

/-- A method can be instrumented if one of the settings selects it. -/
def WeavableBy (passes : List Settings) (method : Method) : Prop :=
  method.declaration.isSelectedBy passes = true → ∃ weave, method.instrument.outcome = .ok weave

variable {passes : List Settings} {method : Method}

theorem wovenBy_of_selected (selected : method.declaration.isSelectedBy passes = true) :
    method.wovenBy passes = method.instrument.method.tagTraced :=
  if_pos selected

theorem wovenBy_of_not_selected (unselected : method.declaration.isSelectedBy passes = false) :
    method.wovenBy passes = method := by
  simp [wovenBy, unselected]

/-- A method that was selected once is left alone by whatever comes later. -/
theorem isSelectedBy_wovenBy (selected : method.declaration.isSelectedBy passes = true)
    (others : List Settings) :
    (method.wovenBy passes).declaration.isSelectedBy others = false := by
  rw [wovenBy_of_selected selected]
  exact Declaration.isSelectedBy_tagTraced _ others

theorem wovenBy_cons (settings : Settings) :
    method.wovenBy (settings :: passes) = (method.wovenBy [settings]).wovenBy passes := by
  by_cases selected : settings.selects method.declaration
  · rw [wovenBy_of_not_selected (isSelectedBy_wovenBy (by simp [selected]) passes)]
    simp [wovenBy, selected]
  · simp [wovenBy, selected]

theorem weavableBy_cons (settings : Settings) :
    method.WeavableBy (settings :: passes) ↔
      method.WeavableBy [settings] ∧ (method.wovenBy [settings]).WeavableBy passes := by
  by_cases selected : settings.selects method.declaration
  · have later : (method.wovenBy [settings]).declaration.isSelectedBy passes = false :=
      isSelectedBy_wovenBy (by simp [selected]) passes
    simp [WeavableBy, selected, later]
  · simp [WeavableBy, wovenBy, selected]

theorem WeavableBy.instrument_eq (weavable : method.WeavableBy passes)
    (selected : method.declaration.isSelectedBy passes = true) :
    ∃ weave, method.instrument = ⟨method.instrument.method, .ok weave⟩ := by
  obtain ⟨weave, outcome_eq⟩ := weavable selected
  exact ⟨weave, by rw [← outcome_eq]⟩

/-- One of several settings selects a method, and it cannot be instrumented. -/
def FailsBy (passes : List Settings) (cause : WeaveError) (method : Method) : Prop :=
  method.declaration.isSelectedBy passes = true ∧ method.instrument.outcome = .error cause

theorem not_weavableBy_iff : ¬method.WeavableBy passes ↔ ∃ cause, method.FailsBy passes cause := by
  simp only [WeavableBy, FailsBy, Classical.not_imp, exists_and_left]
  cases method.instrument.outcome <;> simp

/-- If not all methods can be instrumented that settings select, there is a first one. -/
theorem exists_first_failure {methods : List Method}
    (unweavable : ¬∀ each ∈ methods, each.WeavableBy passes) :
    ∃ before method after cause, methods = before ++ method :: after ∧
      (∀ each ∈ before, each.WeavableBy passes) ∧ method.FailsBy passes cause := by
  induction methods with
  | nil => simp at unweavable
  | cons first rest ih =>
      by_cases weavable : first.WeavableBy passes
      · have rest_unweavable : ¬∀ each ∈ rest, each.WeavableBy passes :=
          fun all => unweavable (List.forall_mem_cons.mpr ⟨weavable, all⟩)
        obtain ⟨before, method, after, cause, rfl, before_weavable, fails⟩ := ih rest_unweavable
        exact ⟨first :: before, method, after, cause, rfl,
          List.forall_mem_cons.mpr ⟨weavable, before_weavable⟩, fails⟩
      · obtain ⟨cause, fails⟩ := not_weavableBy_iff.mp weavable
        exact ⟨[], first, rest, cause, rfl, by simp, fails⟩

/-- Marking a method does not change how it is instrumented. -/
theorem instrument_tagTraced (method : Method) :
    method.tagTraced.instrument =
      ⟨method.instrument.method.tagTraced, method.instrument.outcome⟩ := by
  unfold instrument
  have plan_eq : method.tagTraced.framePlan = method.framePlan := rfl
  rw [plan_eq]
  cases method.framePlan with
  | error cause => rfl
  | ok plan =>
      have build_eq : (method.tagTraced.weaveEntry plan.startSlot).instructions =
          (method.weaveEntry plan.startSlot).instructions := rfl
      simp only [weaveExits, build_eq]
      cases FlowGraph.build (method.weaveEntry plan.startSlot).instructions <;> rfl

end Method

namespace ClassFile

/-- A class as settings leave it that are applied one after another. -/
def wovenBy (passes : List Settings) (file : ClassFile) : ClassFile :=
  { file with methods := file.methods.map (Method.wovenBy passes) }

/-- Every method that one of the settings selects can be instrumented. -/
def WeavableBy (passes : List Settings) (file : ClassFile) : Prop :=
  ∀ method ∈ file.methods, method.WeavableBy passes

theorem wovenBy_nil (file : ClassFile) : file.wovenBy [] = file := by
  have unchanged : Method.wovenBy [] = id :=
    funext fun _ => Method.wovenBy_of_not_selected rfl
  simp [wovenBy, unchanged]

theorem weavableBy_nil (file : ClassFile) : file.WeavableBy [] :=
  fun method _ selected => by simp at selected

theorem wovenBy_cons (settings : Settings) (passes : List Settings) (file : ClassFile) :
    file.wovenBy (settings :: passes) = (file.wovenBy [settings]).wovenBy passes := by
  have composed : Method.wovenBy (settings :: passes) =
      Method.wovenBy passes ∘ Method.wovenBy [settings] :=
    funext fun _ => Method.wovenBy_cons settings
  simp [wovenBy, composed]

theorem weavableBy_cons (settings : Settings) (passes : List Settings) (file : ClassFile) :
    file.WeavableBy (settings :: passes) ↔
      file.WeavableBy [settings] ∧ (file.wovenBy [settings]).WeavableBy passes := by
  simp only [WeavableBy, wovenBy, List.forall_mem_map, ← forall₂_and]
  exact forall₂_congr fun method _ => Method.weavableBy_cons settings

end ClassFile

namespace Report

@[simp]
theorem zero_merge (report : Report) : zero.merge report = report := by
  simp [merge, zero]

@[simp]
theorem merge_zero (report : Report) : report.merge zero = report := rfl

theorem merge_assoc (first second third : Report) :
    (first.merge second).merge third = first.merge (second.merge third) := by
  simp [merge, Nat.add_assoc]

theorem merge_left_comm (first second third : Report) :
    first.merge (second.merge third) = second.merge (first.merge third) := by
  simp [merge, Nat.add_left_comm]

/-- What settings that are applied one after another count for the methods of a class. -/
def ofMethods (passes : List Settings) (methods : List Method) : Report :=
  ⟨passes.length * methods.length,
    methods.countP fun method => method.declaration.isSelectedBy passes,
    ((methods.filter fun method => method.declaration.isSelectedBy passes).map
      Method.returnCount).sum⟩

theorem ofMethods_nil (passes : List Settings) : ofMethods passes [] = zero := by
  simp [ofMethods, zero]

theorem ofMethods_no_passes (methods : List Method) : ofMethods [] methods = zero := by
  have unselected : methods.filter (fun _ => false) = [] :=
    List.filter_eq_nil_iff.mpr fun method _ => Bool.false_ne_true
  simp [ofMethods, zero, unselected]

theorem ofMethods_cons (passes : List Settings) (method : Method) (methods : List Method) :
    ofMethods passes (method :: methods) =
      (ofMethods passes [method]).merge (ofMethods passes methods) := by
  by_cases selected : method.declaration.isSelectedBy passes
  all_goals simp [ofMethods, merge, selected, Nat.mul_add, Nat.add_comm]

/-- The first settings count what they look at, and the others count what that leaves them. -/
theorem ofMethods_cons_pass (settings : Settings) (passes : List Settings)
    (methods : List Method) :
    ofMethods (settings :: passes) methods =
      (ofMethods [settings] methods).merge
        (ofMethods passes (methods.map (Method.wovenBy [settings]))) := by
  induction methods with
  | nil => simp [ofMethods_nil]
  | cons method rest ih =>
      have single : ofMethods (settings :: passes) [method] =
          (ofMethods [settings] [method]).merge
            (ofMethods passes [method.wovenBy [settings]]) := by
        by_cases selected : settings.selects method.declaration
        · simp [ofMethods, merge, Method.wovenBy, Method.tagTraced, selected, Nat.add_comm]
        · by_cases later : method.declaration.isSelectedBy passes
          all_goals simp [ofMethods, merge, Method.wovenBy, selected, later, Nat.add_comm]
      rw [ofMethods_cons (settings :: passes) method rest, single, ih, List.map_cons,
        ofMethods_cons [settings] method rest,
        ofMethods_cons passes (method.wovenBy [settings]) (rest.map _)]
      simp only [merge_assoc]
      rw [merge_left_comm (ofMethods passes [_])]

end Report

end MethodTracing
