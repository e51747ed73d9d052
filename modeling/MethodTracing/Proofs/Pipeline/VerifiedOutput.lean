import Mathlib.Order.CompletePartialOrder
import Mathlib.Order.Interval.Set.Disjoint
import MethodTracing.Proofs.Pipeline.Passes
import MethodTracing.Proofs.Weaving.Usage

/-!
# Verified output

A pipeline that verifies examines the methods that it has woven, under the limits that weaving has
raised.  Bodies that verify before weaving are accepted, apart from empty ones; and what is accepted
keeps clear of the slots of the two times exactly if it kept to the locals that it declared.
-/

namespace MethodTracing

open Verification

namespace Method

/-- Marking a method does not change what verification makes of it. -/
theorem verify_tagTraced (method : Method) : method.tagTraced.verify = method.verify := rfl

theorem isTraced_tagTraced (method : Method) : method.tagTraced.declaration.isTraced = true :=
  AnnotationSet.contains_insert method.declaration.annotations tracedTag

/-! ## Bodies that verify once they are woven -/

/-- Control runs off the end of an empty body once the entry sequence stands in it. -/
theorem verify_instrumented_of_nil {method after : Method} {usage : FrameUsage} {weave : Weave}
    (hollow : method.instructions = []) (verified : method.verify = .ok usage)
    (woven : method.instrument = ⟨after, .ok weave⟩) : after.verify = .error .fallsOffEnd := by
  have arguments_fit := argumentSlots_le_of_verify verified
  obtain ⟨traced, declaration_eq, -⟩ := instrument_eq_ok woven
  have raised : after.limits.maxLocals = method.limits.maxLocals + 4 := traced.maxLocals
  have labelled : Flow.WellLabelled after.instructions :=
    traced.instructions ▸ Weaving.wellLabelled_traced traced.labelled
  have falls : (FlowGraph.ofCode after.instructions).fallsOffEnd = true := by
    rw [FlowGraph.fallsOffEnd_ofCode, traced.instructions, hollow]
    rfl
  simp only [verify, declaration_eq]
  rw [if_neg (by omega), FlowGraph.build_eq_ok_iff.mpr ⟨labelled, rfl⟩]
  simp only [falls, if_true]

/-- A method that verifies does so once it is instrumented, unless its body is empty. -/
theorem exists_verify_instrumented_iff {method after : Method} {weave : Weave}
    (verified : ∃ usage, method.verify = .ok usage)
    (woven : method.instrument = ⟨after, .ok weave⟩) :
    (∃ usage, after.verify = .ok usage) ↔ method.instructions ≠ [] := by
  obtain ⟨usage, verified⟩ := verified
  constructor
  · rintro ⟨raised, accepted⟩ hollow
    rw [verify_instrumented_of_nil hollow verified woven] at accepted
    simp at accepted
  · exact fun inhabited => ⟨_, (verify_instrumented inhabited verified woven).1⟩

/-- What passes make of a method that verifies is accepted, unless they weave an empty body. -/
theorem accepted_wovenBy_iff {method : Method} {passes : List Settings}
    (weavable : method.WeavableBy passes) (verified : ∃ usage, method.verify = .ok usage) :
    ((method.wovenBy passes).declaration.isTraced = true →
        ∃ usage, (method.wovenBy passes).verify = .ok usage) ↔
      (method.declaration.isSelectedBy passes = true → method.instructions ≠ []) := by
  cases selected : method.declaration.isSelectedBy passes with
  | false =>
      rw [wovenBy_of_not_selected selected]
      simp [verified]
  | true =>
      obtain ⟨weave, woven⟩ := weavable.instrument_eq selected
      rw [wovenBy_of_selected selected, isTraced_tagTraced, verify_tagTraced,
        exists_verify_instrumented_iff verified woven]

end Method

namespace Pipeline

theorem unverified?_eq_none_iff {methods : List Method} :
    unverified? methods = none ↔ ∀ method ∈ methods,
      method.declaration.isTraced = true → ∃ usage, method.verify = .ok usage := by
  induction methods with
  | nil => simp [unverified?]
  | cons method rest ih =>
      rw [unverified?, List.forall_mem_cons]
      cases traced : method.declaration.isTraced with
      | false => simp [ih]
      | true => cases verified : method.verify <;> simp [ih]

theorem unverified?_eq_some {methods : List Method} {cause : PipelineError}
    (refused : unverified? methods = some cause) : ∃ name reason, cause = .verify name reason := by
  induction methods with
  | nil => simp [unverified?] at refused
  | cons method rest ih =>
      rw [unverified?] at refused
      split at refused
      · split at refused
        · exact ⟨_, _, (Option.some.inj refused).symm⟩
        · exact ih refused
      · exact ih refused

/-- A class whose methods verify is not refused after weaving, unless an empty body was woven. -/
theorem weave_of_verified {pipeline : Pipeline} {file : ClassFile}
    (verifies : pipeline.verifies = true)
    (verified : ∀ method ∈ file.methods, ∃ usage, method.verify = .ok usage) :
    ((∃ woven report, pipeline.weave file = .ok (woven, report)) ∨
      ∃ cause, pipeline.weave file = .error (.weave cause)) ↔
    ¬file.WeavableBy pipeline.passes ∨
      ∀ method ∈ file.methods, pipeline.selects method.declaration = true →
        method.instructions ≠ [] := by
  by_cases weavable : file.WeavableBy pipeline.passes
  · have accepted : pipeline.refused? file = none ↔ ∀ method ∈ file.methods,
        pipeline.selects method.declaration = true → method.instructions ≠ [] := by
      rw [refused?, if_pos verifies, unverified?_eq_none_iff, ClassFile.wovenBy,
        List.forall_mem_map]
      exact forall₂_congr fun method member =>
        Method.accepted_wovenBy_iff (weavable method member) (verified method member)
    rw [weave_of_weavable weavable, ← accepted]
    cases refused : pipeline.refused? file with
    | none => simp [weavable]
    | some cause =>
        rw [refused?, if_pos verifies] at refused
        obtain ⟨name, reason, rfl⟩ := unverified?_eq_some refused
        simp [weavable]
  · simp [weave_of_not_weavable weavable, weavable]

/-- Verify the methods that are marked as timed, once they are woven. -/
def timedVerified : Pipeline := { timed with verifies := true }

/-- A loop without an end, a body with a tail out of reach, and a member without a body; all but the
last are marked. -/
def boundedFile : ClassFile :=
  let declare (name : String) (annotations : List String) : Declaration :=
    { owner := "Bounded", name, type := some ⟨[.int], some .int⟩, access := ⟨0x0008⟩
      kind := .function, annotations := ⟨annotations⟩ }
  { name := "Bounded"
    methods :=
      [⟨declare "wait" ["Timed"], [.label ⟨0⟩, .iinc 0 1, .goto ⟨0⟩], 0, 1⟩,
        ⟨declare "same" ["Timed"], [.load .int 0, .ret (some .int), .pop, .ret none], 1, 1⟩,
        ⟨declare "extern" [], [], 0, 1⟩] }

theorem verified_boundedFile :
    ∀ method ∈ boundedFile.methods, ∃ usage, method.verify = .ok usage := by
  simp only [boundedFile, List.forall_mem_cons]
  refine ⟨⟨⟨0, 1, 3⟩, ?_⟩, ⟨⟨1, 1, 2⟩, ?_⟩, ⟨⟨0, 1, 0⟩, ?_⟩, by simp⟩
  all_goals decide +kernel

theorem weave_of_verified_boundedFile :
    timedVerified.verifies = true ∧
    (∀ method ∈ boundedFile.methods, ∃ usage, method.verify = .ok usage) ∧
    (((∃ woven report, timedVerified.weave boundedFile = .ok (woven, report)) ∨
        ∃ cause, timedVerified.weave boundedFile = .error (.weave cause)) ↔
      ¬boundedFile.WeavableBy timedVerified.passes ∨
        ∀ method ∈ boundedFile.methods, timedVerified.selects method.declaration = true →
          method.instructions ≠ []) :=
  ⟨rfl, verified_boundedFile, weave_of_verified rfl verified_boundedFile⟩

/-- A member without a body that is marked all the same. -/
def hollowFile : ClassFile :=
  { name := "Api"
    methods :=
      [{ declaration :=
          { owner := "Api", name := "size", type := some ⟨[], some .int⟩, access := ⟨0x0001⟩
            kind := .function, annotations := ⟨["Timed"]⟩ }
         instructions := []
         maxStack := 0
         maxLocals := 1 }] }

theorem weave_hollowFile :
    (∀ method ∈ hollowFile.methods, method.verify = .ok ⟨0, 1, 0⟩) ∧
      timedVerified.weave hollowFile = .error (.verify "Api.size" .fallsOffEnd) := by
  decide +kernel

end Pipeline

/-! ## Slots of the times -/

/-- The local slots that hold the start and end times. -/
def FramePlan.timeSlots (plan : FramePlan) : Set Nat :=
  Set.Ico plan.startSlot.toNat (plan.endSlot.toNat + timestampSlots)

namespace Method

/-- The local slots that a method uses: those of its arguments, and those accessed by instructions
that control can reach. -/
def usedSlots (method : Method) : Set Nat :=
  Set.Iio method.declaration.argumentSlots ∪
    {slot | ∃ index depth instruction access,
      Reached method.instructions index depth ∧
      method.instructions[index]? = some instruction ∧ instruction.access? = some access ∧
      access.slot.toNat ≤ slot ∧ slot < access.stop}

/-- A method that verifies uses no locals but those that it declares. -/
theorem usedSlots_subset_of_verify {method : Method} {usage : FrameUsage}
    (verified : method.verify = .ok usage) :
    method.usedSlots ⊆ Set.Iio method.maxLocals.toNat := by
  have arguments_fit := argumentSlots_le_of_verify verified
  rintro slot (argument | ⟨index, depth, instruction, access, reached, found, accesses, -, below⟩)
  · exact Set.mem_Iio.mpr (Nat.lt_of_lt_of_le argument arguments_fit)
  · have inhabited : method.instructions ≠ [] := by
      rintro hollow
      simp [hollow] at found
    obtain ⟨-, -, -, seen, survey, -⟩ := (verify_eq_ok_iff inhabited).mp verified
    have inside := (survey.fits_of_reached reached found).inside
    rw [localsOf, accesses] at inside
    exact Set.mem_Iio.mpr (Nat.lt_of_lt_of_le below inside)

end Method

namespace Instrumented

variable {before after : Method} {plan : FramePlan}

theorem timeSlots_eq (woven : Instrumented before after plan) :
    plan.timeSlots = Set.Ico before.maxLocals.toNat (before.maxLocals.toNat + 4) := by
  rw [FramePlan.timeSlots, woven.startSlot, woven.endSlot]
  rfl

/-- A woven method uses the slots that it used before. -/
theorem usedSlots_subset (woven : Instrumented before after plan) :
    before.usedSlots ⊆ after.usedSlots := by
  have arguments_eq : after.declaration.argumentSlots = before.declaration.argumentSlots := by
    rw [woven.declaration]
    rfl
  rintro slot (argument | ⟨index, depth, instruction, access, reached, found, accesses, covers⟩)
  · exact Or.inl (arguments_eq ▸ argument)
  · have inhabited : before.instructions ≠ [] := by
      rintro hollow
      simp [hollow] at found
    refine Or.inr ⟨Weaving.position before.instructions index, depth, instruction, access, ?_, ?_,
      accesses, covers⟩
    · rw [woven.instructions]
      exact Weaving.reached_position found
        (Weaving.reached_offset inhabited woven.labelled reached)
    · rw [woven.instructions]
      exact Weaving.getElem?_position found

/-- If a woven method verifies, the times have slots of their own exactly if the method used only
the locals that it declared. -/
theorem disjoint_timeSlots_iff (woven : Instrumented before after plan) {usage : FrameUsage}
    (verified : after.verify = .ok usage) :
    Disjoint plan.timeSlots before.usedSlots ↔
      before.usedSlots ⊆ Set.Iio before.maxLocals.toNat := by
  have raised : before.usedSlots ⊆ Set.Iio (before.maxLocals.toNat + 4) :=
    woven.maxLocals ▸ woven.usedSlots_subset.trans (Method.usedSlots_subset_of_verify verified)
  rw [woven.timeSlots_eq, Set.disjoint_right]
  constructor
  · intro apart slot used
    by_contra beyond
    exact apart used ⟨Nat.not_lt.mp beyond, raised used⟩
  · exact fun kept slot used time => Nat.not_lt.mpr time.1 (kept used)

end Instrumented

namespace Pipeline

/-- In verified output the slots of the times alias no slot that the method uses, exactly if the
method used only the locals that it declared; it does if it verified before. -/
theorem weave_timeSlots {pipeline : Pipeline} {file woven : ClassFile} {report : Report}
    (verifies : pipeline.verifies = true) (ran : pipeline.weave file = .ok (woven, report))
    {index : Nat} {method : Method} (found : file.methods[index]? = some method)
    (selected : pipeline.selects method.declaration = true) :
    ∃ after weave, method.instrument = ⟨after, .ok weave⟩ ∧
      woven.methods[index]? = some after.tagTraced ∧
      (Disjoint weave.plan.timeSlots method.usedSlots ↔
        method.usedSlots ⊆ Set.Iio method.maxLocals.toNat) ∧
      ((∃ usage, method.verify = .ok usage) →
        Disjoint weave.plan.timeSlots method.usedSlots) := by
  obtain ⟨weavable, accepted, answer_eq⟩ := weave_eq_ok_iff.mp ran
  obtain ⟨rfl, -⟩ := Prod.mk.inj answer_eq
  obtain ⟨weave, instrumented⟩ :=
    (weavable method (List.mem_of_getElem? found)).instrument_eq selected
  have woven_at : (file.wovenBy pipeline.passes).methods[index]? =
      some method.instrument.method.tagTraced := by
    rw [ClassFile.wovenBy, List.getElem?_map, found, Option.map_some,
      Method.wovenBy_of_selected selected]
  rw [refused?, if_pos verifies, unverified?_eq_none_iff] at accepted
  obtain ⟨usage, verified⟩ := accepted _ (List.mem_of_getElem? woven_at)
    (Method.isTraced_tagTraced _)
  rw [Method.verify_tagTraced] at verified
  have apart_iff := (Method.instrument_eq_ok instrumented).1.disjoint_timeSlots_iff verified
  refine ⟨_, weave, instrumented, woven_at, apart_iff, ?_⟩
  rintro ⟨usage_before, verified_before⟩
  exact apart_iff.mpr (Method.usedSlots_subset_of_verify verified_before)

theorem weave_timeSlots_boundedFile :
    ∃ woven report method, timedVerified.verifies = true ∧
      timedVerified.weave boundedFile = .ok (woven, report) ∧
      boundedFile.methods[1]? = some method ∧ timedVerified.selects method.declaration = true ∧
      ∃ after weave, method.instrument = ⟨after, .ok weave⟩ ∧
        woven.methods[1]? = some after.tagTraced ∧
        (Disjoint weave.plan.timeSlots method.usedSlots ↔
          method.usedSlots ⊆ Set.Iio method.maxLocals.toNat) ∧
        ((∃ usage, method.verify = .ok usage) →
          Disjoint weave.plan.timeSlots method.usedSlots) := by
  obtain ⟨woven, report, ran⟩ : ∃ woven report,
      timedVerified.weave boundedFile = .ok (woven, report) :=
    exists_answer_of_isOk (by decide +kernel)
  have selected : timedVerified.selects
      (boundedFile.methods.get ⟨1, by decide⟩).declaration = true := by decide
  exact ⟨woven, report, _, rfl, ran, rfl, selected, weave_timeSlots rfl ran rfl selected⟩

/-- A method whose argument lies past the locals that it declares. -/
def crampedFile : ClassFile :=
  { name := "Cramped"
    methods :=
      [{ declaration :=
          { owner := "Cramped", name := "same", type := some ⟨[.int], some .int⟩
            access := ⟨0x0008⟩, kind := .function, annotations := ⟨["Timed"]⟩ }
         instructions := [.load .int 0, .ret (some .int)]
         maxStack := 1
         maxLocals := 0 }] }

theorem weave_timeSlots_crampedFile :
    (∃ woven report, timedVerified.weave crampedFile = .ok (woven, report)) ∧
      ∃ method ∈ crampedFile.methods, timedVerified.selects method.declaration = true ∧
        ∃ after weave, method.instrument = ⟨after, .ok weave⟩ ∧
          ¬Disjoint weave.plan.timeSlots method.usedSlots := by
  refine ⟨exists_answer_of_isOk (by decide +kernel), _, List.mem_cons_self, by decide, _,
    ⟨⟨0, 2, 4, 4, 5⟩, 1⟩, rfl, Set.not_disjoint_iff.mpr ⟨0, ?_, Or.inl ?_⟩⟩
  · simp [FramePlan.timeSlots, timestampSlots]
  · exact Set.mem_Iio.mpr (by decide)

end Pipeline
end MethodTracing
