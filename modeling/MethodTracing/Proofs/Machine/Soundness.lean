import MethodTracing.Proofs.Machine.Bodies
import MethodTracing.Proofs.Machine.Instructions
import MethodTracing.Proofs.Machine.Runs
import MethodTracing.Proofs.Verification.Assignments

/-!
# Soundness of verification

Every activation of a verified method stands at an index and a depth that control can reach, and one
that waits does so behind a call whose result it expects.  Main statement: no call of a class whose
methods verify meets a structural fault, and no activation uses more of its frame than verification
found, as long as no count of argument slots is cut off at the ceiling.  Where one is, verification
compares and pops the ceiling while the machine lays out and pops the arguments one by one; the last
section has a class that verifies and meets a fault on either side.
-/

namespace MethodTracing

/-- Declared parameters; none where no type is known. -/
def Declaration.parameters (declaration : Declaration) : List FieldType :=
  (declaration.type.map MethodType.parameters).getD []

/-- A callee is a method of the class without receiver and of the type that the call names. -/
theorem ClassFile.callee?_eq_some {file : ClassFile} {call : MethodRef} {callee : Method}
    (found : file.callee? call = some callee) :
    callee ∈ file.methods ∧ callee.declaration.access.isStatic ∧
      callee.declaration.type = some call.type := by
  have test := List.find?_some found
  simp only [Bool.and_eq_true, beq_iff_eq] at test
  exact ⟨List.mem_of_find?_eq_some found, test.1.2, test.2⟩

/-- A class whose methods verify, and whose descriptors say what returns and members of the platform
leave. -/
structure ClassFile.Verified (file : ClassFile) : Prop where
  /-- Every method has a body. -/
  inhabited : ∀ method ∈ file.methods, method.instructions ≠ []
  /-- Every method verifies. -/
  verified : ∀ method ∈ file.methods, ∃ usage, method.verify = .ok usage
  /-- Every return takes the slots of the declared result. -/
  returns : ∀ method ∈ file.methods, ∀ type, method.declaration.type = some type →
    ∀ kind, .ret kind ∈ method.instructions →
      (Instruction.ret kind).effect.pops = type.resultSlots
  /-- Members of the platform are named with their widths. -/
  names : ∀ method ∈ file.methods, ∀ instruction ∈ method.instructions, instruction.NamesWidths

/-- A class none of whose slot counts is cut off at the ceiling. -/
structure ClassFile.Unsaturated (file : ClassFile) : Prop where
  /-- The arguments of a call are counted as they are. -/
  counts : ∀ method ∈ file.methods, ∀ instruction ∈ method.instructions, instruction.CountsSlots
  /-- The arguments of a method are counted as they are. -/
  declares : ∀ method ∈ file.methods,
    MethodType.totalWidth method.declaration.parameters + method.declaration.receiverSlots ≤
      slotCeiling

/-- A class whose verification can be relied on. -/
structure ClassFile.Reliable (file : ClassFile) : Prop extends file.Verified, file.Unsaturated

namespace Verification

variable {method : Method} {usage : FrameUsage} {index depth : Nat} {instruction : Instruction}

/-- What is reached in a verified method keeps to its limits and to its usage. -/
theorem usage_of_reached (inhabited : method.instructions ≠ [])
    (verified : method.verify = .ok usage)
    (reached : Reached method.instructions index depth)
    (found : method.instructions[index]? = some instruction) :
    Fits method.limits depth instruction ∧ after depth instruction ≤ usage.maxDepth ∧
      localsOf instruction ≤ usage.localsUsed := by
  obtain ⟨-, -, -, seen, survey, rfl⟩ := (Method.verify_eq_ok_iff inhabited).mp verified
  have member := (survey.mem_iff ⟨index, depth, instruction⟩).mpr ⟨reached, found⟩
  exact ⟨survey.fits _ member, ((maxDepth_tally_le_iff _).mp (Nat.le_refl _)).2 _ member,
    ((localsUsed_tally_le_iff _).mp (Nat.le_refl _)).2 _ member⟩

/-- Reached depths keep to the usage. -/
theorem depth_le_of_verified (inhabited : method.instructions ≠ [])
    (verified : method.verify = .ok usage) (reached : Reached method.instructions index depth) :
    depth ≤ usage.maxDepth := by
  cases reached with
  | start => exact Nat.zero_le _
  | pass earlier found _ => exact (usage_of_reached inhabited verified earlier found).2.1

/-- In a verified method, an instruction that does not end a block is followed by another one. -/
theorem passes_next (inhabited : method.instructions ≠ []) (verified : method.verify = .ok usage)
    (found : method.instructions[index]? = some instruction)
    (goes_on : instruction.endsBlock = false) :
    Flow.Passes method.instructions index (index + 1) := by
  obtain ⟨-, -, ends, -⟩ := (Method.verify_eq_ok_iff inhabited).mp verified
  obtain ⟨in_range, -⟩ := List.getElem?_eq_some_iff.mp found
  refine ⟨instruction, found, Or.inl ⟨goes_on, rfl, ?_⟩⟩
  by_contra at_end
  have last : index = method.instructions.length - 1 := by omega
  rw [FlowGraph.fallsOffEnd_ofCode, List.getLast?_eq_getElem?, ← last, found] at ends
  simp [goes_on] at ends

/-- In a verified method, a branch leads somewhere. -/
theorem passes_target (inhabited : method.instructions ≠ []) (verified : method.verify = .ok usage)
    (found : method.instructions[index]? = some instruction) {target : Label}
    (branches : instruction.branchTarget? = some target) :
    ∃ place, Flow.labelPosition? method.instructions target = some place ∧
      Flow.Passes method.instructions index place := by
  obtain ⟨-, labelled, -⟩ := (Method.verify_eq_ok_iff inhabited).mp verified
  have marked := labelled.resolved instruction (List.mem_of_getElem? found) target branches
  rw [← Flow.isSome_labelPosition?, Option.isSome_iff_exists] at marked
  obtain ⟨place, placed⟩ := marked
  exact ⟨place, placed, instruction, found, Or.inr ⟨target, branches, placed⟩⟩

/-- The arguments of a verified method fit into its locals, below those that it uses. -/
theorem arguments_fit (inhabited : method.instructions ≠ []) (verified : method.verify = .ok usage)
    (declares : MethodType.totalWidth method.declaration.parameters +
      method.declaration.receiverSlots ≤ slotCeiling) :
    method.declaration.receiverSlots + MethodType.totalWidth method.declaration.parameters ≤
        method.limits.maxLocals ∧
      method.declaration.receiverSlots + MethodType.totalWidth method.declaration.parameters ≤
        usage.localsUsed := by
  obtain ⟨fit, -, -, seen, survey, rfl⟩ := (Method.verify_eq_ok_iff inhabited).mp verified
  have used := ((localsUsed_tally_le_iff _).mp (Nat.le_refl
    (tally ⟨0, method.declaration.argumentSlots, 0⟩ seen).localsUsed)).1
  have slots_eq : method.declaration.argumentSlots =
      method.declaration.receiverSlots + MethodType.totalWidth method.declaration.parameters := by
    unfold Declaration.argumentSlots
    unfold Declaration.parameters at declares ⊢
    cases type_eq : method.declaration.type with
    | none =>
        simp only [type_eq, Option.map_none, Option.getD_none, MethodType.totalWidth] at declares ⊢
        omega
    | some type =>
        simp only [type_eq, Option.map_some, Option.getD_some, MethodType.parameterSlots,
          MethodType.parameterWidth] at declares ⊢
        omega
  simp only at used
  omega

end Verification

namespace Machine

open Verification

/-- An activation of a method of the class, at a depth that control can reach, whose operands take
`held` slots. -/
structure Activation.Occupies (file : ClassFile) (activation : Activation) (depth held : Nat) :
    Prop where
  member : activation.body.method ∈ file.methods
  reached : Reached activation.body.method.instructions activation.index depth
  keeps : ∃ usage, activation.body.method.verify = .ok usage ∧
    activation.frame.Keeps activation.body.method.limits usage.localsUsed held

/-- An activation waits for a method behind a call of it; the arguments are popped. -/
def Activation.Awaits (file : ClassFile) (activation : Activation) (callee : Method) : Prop :=
  ∃ depth call, activation.instruction? = some (.invoke .direct call) ∧
    callee.declaration.type = some call.type ∧ call.type.parameterWidth ≤ depth ∧
    activation.Occupies file depth (depth - call.type.parameterWidth)

/-- Activations wait one for the other, the first one for a given method. -/
def AwaitedBy (file : ClassFile) : Method → List Activation → Prop
  | _, [] => True
  | callee, caller :: rest => caller.Awaits file callee ∧ AwaitedBy file caller.body.method rest

/-- Every activation of a state stands where control can reach. -/
def State.Accounted (file : ClassFile) (state : State) : Prop :=
  (∃ depth, state.current.Occupies file depth depth) ∧
    AwaitedBy file state.current.body.method state.callers

/-- A call has not ended with a structural fault. -/
def Unbroken (_ : World) (outcome : Except CallError (Option Value)) : Prop :=
  ∀ method index fault, outcome = .error (.fault method index fault) → fault.isStructural = false

section Runs

variable {setup : Setup} {world : World} {callers : List Activation}

/-- A method begins well if its arguments have the declared widths. -/
theorem activate_meets (reliable : setup.file.Reliable) {method : Method} {arguments : List Value}
    (member : method ∈ setup.file.methods)
    (widths : valueWidth arguments =
      method.declaration.receiverSlots + MethodType.totalWidth method.declaration.parameters)
    (awaited : AwaitedBy setup.file method callers) :
    (activate setup world callers method arguments).Meets (State.Accounted setup.file)
      Unbroken := by
  unfold activate
  split
  · simp [Progress.Meets, Unbroken]
  · split
    · simp [Progress.Meets, Unbroken]
    · obtain ⟨usage, verify_eq⟩ := reliable.verified method member
      obtain ⟨fit, used⟩ := arguments_fit (reliable.inhabited method member) verify_eq
        (reliable.declares method member)
      have empty : Frame.Keeps method.limits usage.localsUsed 0
          (.empty method.maxStack method.maxLocals.toNat) := Frame.keeps_empty _ _ _
      have laid := Frame.layOut_sound empty 0 arguments (by omega) (by omega)
      split
      · rename_i fault failed
        rw [failed] at laid
        simp only [Progress.Meets, Unbroken, failureAt]
        rintro _ _ _ ⟨⟩
        exact laid
      · rename_i frame found
        rw [found] at laid
        exact ⟨⟨0, member, .start, usage, verify_eq, laid⟩, awaited⟩

/-- A return goes well if the value has the width that the method declares. -/
theorem resume_meets (reliable : setup.file.Reliable) {callee : Method} {value : Option Value}
    (widths : ∀ type, callee.declaration.type = some type → resultWidth value = type.resultSlots)
    (awaited : AwaitedBy setup.file callee callers) :
    (resume world value callers).Meets (State.Accounted setup.file) Unbroken := by
  cases callers with
  | nil => simp [resume, Progress.Meets, Unbroken]
  | cons caller callers =>
      obtain ⟨⟨depth, call, called, type_eq, enough, occupies⟩, awaited⟩ := awaited
      obtain ⟨member, reached, usage, verify_eq, keeps⟩ := occupies
      have found :
          caller.body.method.instructions[caller.index]? = some (.invoke .direct call) := by
        rw [← caller.body.instruction?_eq]
        exact called
      have inhabited := reliable.inhabited _ member
      have fits := (usage_of_reached inhabited verify_eq reached found).1
      have counts := reliable.counts _ member _ (List.mem_of_getElem? found)
      have pops_eq : (Instruction.invoke .direct call).effect.pops = call.type.parameterWidth := by
        simp only [Instruction.CountsSlots] at counts
        simp only [Instruction.effect, CallKind.argumentSlots, MethodType.parameterSlots,
          CallKind.receiverSlots] at counts ⊢
        omega
      have after_eq : after depth (.invoke .direct call) =
          depth - call.type.parameterWidth + resultWidth value := by
        rw [after, pops_eq, widths _ type_eq]
        rfl
      have reached_next := reached.pass found (passes_next inhabited verify_eq found rfl)
      cases value with
      | none =>
          refine ⟨⟨_, member, reached_next, usage, verify_eq, ?_⟩, awaited⟩
          rw [after_eq]
          exact keeps
      | some value =>
          have room := fits.room
          rw [after_eq] at room
          have pushed := Frame.push_sound keeps _ room
          simp only [resume]
          split
          · rename_i fault failed
            rw [failed] at pushed
            simp only [Progress.Meets, Unbroken, failureAt]
            rintro _ _ _ ⟨⟩
            exact pushed
          · rename_i frame pushed_eq
            rw [pushed_eq] at pushed
            refine ⟨⟨_, member, reached_next, usage, verify_eq, ?_⟩, awaited⟩
            rw [after_eq]
            exact pushed

/-- One step from an accounted state leads to another or ends well. -/
theorem step_meets (reliable : setup.file.Reliable) {state : State}
    (accounted : state.Accounted setup.file) :
    (step setup state).Meets (State.Accounted setup.file) Unbroken := by
  obtain ⟨world, ⟨body, frame, index⟩, callers⟩ := state
  obtain ⟨⟨depth, member, reached, usage, verify_eq, keeps⟩, awaited⟩ := accounted
  simp only at member reached verify_eq keeps awaited
  have inhabited := reliable.inhabited _ member
  obtain ⟨instruction, found⟩ :
      ∃ instruction, body.method.instructions[index]? = some instruction :=
    ⟨_, List.getElem?_eq_getElem (reached.lt_length inhabited)⟩
  have instruction_member := List.mem_of_getElem? found
  obtain ⟨fits, -, within⟩ := usage_of_reached inhabited verify_eq reached found
  have performed := perform_follows setup.file world
    (reliable.names _ member _ instruction_member) (reliable.counts _ member _ instruction_member)
    fits within keeps
  simp only [step, body.instruction?_eq, found]
  cases outcome_eq : perform setup.file world frame instruction with
  | mk later outcome =>
      rw [outcome_eq] at performed
      rcases outcome with (fault | reason) |
        (frame | ⟨frame, target⟩ | ⟨frame, callee, arguments⟩ | value)
      · have not_structural : fault.isStructural = false := performed
        simp only [Progress.Meets, Unbroken, failureAt]
        rintro _ _ _ ⟨⟩
        exact not_structural
      · simp [Progress.Meets, Unbroken]
      · obtain ⟨goes_on, kept⟩ := performed
        have passes := passes_next inhabited verify_eq found goes_on
        exact ⟨⟨_, member, reached.pass found passes, usage, verify_eq, kept⟩, awaited⟩
      · obtain ⟨branches, kept⟩ := performed
        obtain ⟨place, placed, passes⟩ := passes_target inhabited verify_eq found branches
        obtain ⟨-, labelled, -⟩ := (Method.verify_eq_ok_iff inhabited).mp verify_eq
        simp only [body.place?_eq_labelPosition? labelled.distinct, placed]
        exact ⟨⟨_, member, reached.pass found passes, usage, verify_eq, kept⟩, awaited⟩
      · obtain ⟨call, rfl, called, widths, enough, kept⟩ := performed
        obtain ⟨callee_member, static, type_eq⟩ := ClassFile.callee?_eq_some called
        apply activate_meets reliable callee_member
        · rw [Frame.valueWidth_eq_totalWidth widths, Declaration.receiverSlots, if_pos static,
            Nat.zero_add, Declaration.parameters, type_eq]
          rfl
        · exact ⟨⟨depth, call, by rw [Activation.instruction?, body.instruction?_eq, found],
            type_eq, enough, member, reached, usage, verify_eq, kept⟩, awaited⟩
      · obtain ⟨kind, rfl, width_eq⟩ := performed
        apply resume_meets reliable _ awaited
        intro type type_eq
        rw [width_eq, ← reliable.returns _ member type type_eq kind instruction_member]
        cases kind <;> rfl

/-- A run that is accounted for always has a further instruction. -/
theorem exhausted_unbroken (reliable : setup.file.Reliable) {state : State}
    (accounted : state.Accounted setup.file) :
    Unbroken state.world (.error (exhausted state)) := by
  obtain ⟨⟨depth, member, reached, -⟩, -⟩ := accounted
  have in_range := reached.lt_length (reliable.inhabited _ member)
  have found : state.current.instruction?.isNone = false := by
    rw [Activation.instruction?, state.current.body.instruction?_eq,
      List.getElem?_eq_getElem in_range]
    rfl
  simp [Unbroken, exhausted, found]

end Runs

/-- What verification promises of an activation: its operands take no more than the highest depth it
found, the instruction that it executes accesses no local past those it found, and no local past
them was ever set. -/
def Activation.WithinUsage (activation : Activation) : Prop :=
  ∃ usage, activation.body.method.verify = .ok usage ∧
    activation.frame.depth.toNat ≤ usage.maxDepth ∧
    (∀ instruction access, activation.instruction? = some instruction →
      instruction.access? = some access → access.stop ≤ usage.localsUsed) ∧
    ∀ slot, usage.localsUsed ≤ slot → activation.frame.locals.getD slot .top = .top

theorem Activation.Occupies.withinUsage {file : ClassFile} (reliable : file.Reliable)
    {activation : Activation} {depth held : Nat} (occupies : activation.Occupies file depth held)
    (held_le : held ≤ depth) : activation.WithinUsage := by
  obtain ⟨member, reached, usage, verify_eq, keeps⟩ := occupies
  have inhabited := reliable.inhabited _ member
  refine ⟨usage, verify_eq, ?_, ?_, keeps.untouched⟩
  · have := depth_le_of_verified inhabited verify_eq reached
    rw [keeps.depth_eq]
    omega
  · intro instruction access found accesses
    rw [Activation.instruction?, activation.body.instruction?_eq] at found
    have used := (usage_of_reached inhabited verify_eq reached found).2.2
    simpa [localsOf, accesses] using used

theorem AwaitedBy.withinUsage {file : ClassFile} (reliable : file.Reliable) {callee : Method}
    {callers : List Activation} (awaited : AwaitedBy file callee callers) :
    ∀ activation ∈ callers, activation.WithinUsage := by
  induction callers generalizing callee with
  | nil => simp
  | cons caller rest ih =>
      obtain ⟨⟨depth, call, -, -, -, occupies⟩, awaited⟩ := awaited
      rw [List.forall_mem_cons]
      exact ⟨occupies.withinUsage reliable (Nat.sub_le _ _), ih awaited⟩

namespace Session

variable {session : Session} {name : String} {arguments : List Value}

theorem begin_meets (reliable : session.setup.file.Reliable)
    (widths : ∀ method, session.setup.file.method? name = some method →
      arguments.map Value.width = method.declaration.parameters.map FieldType.width)
    {progress : Progress} (begun : session.begin name arguments = some progress) :
    progress.Meets (State.Accounted session.setup.file) Unbroken := by
  obtain ⟨method, found, cases_of_static⟩ := begin_cases begun
  have member : method ∈ session.setup.file.methods := List.mem_of_find?_eq_some found
  have argument_widths : valueWidth arguments =
      MethodType.totalWidth method.declaration.parameters :=
    Frame.valueWidth_eq_totalWidth (widths method found)
  rcases cases_of_static with ⟨static, rfl⟩ | ⟨instance_method, rfl⟩
  · refine activate_meets reliable member ?_ True.intro
    rw [argument_widths, Declaration.receiverSlots, if_pos static, Nat.zero_add]
  · refine activate_meets reliable member ?_ True.intro
    rw [Declaration.receiverSlots, if_neg (by simp [instance_method]), ← argument_widths]
    rfl

/-- Calls of a class whose methods verify meet no structural fault, and every activation keeps to
the usage that verification found, whatever the arguments, the clock, the sink, the budget and the
nesting limit. -/
theorem invoke_verified (verified : session.setup.file.Verified)
    (unsaturated : session.setup.file.Unsaturated)
    (widths : ∀ method, session.setup.file.method? name = some method →
      arguments.map Value.width = method.declaration.parameters.map FieldType.width) :
    (∀ method index fault,
      (session.invoke name arguments).2 = .error (.fault method index fault) →
        fault.isStructural = false) ∧
    ∀ progress, session.begin name arguments = some progress →
      ∀ state ∈ states session.setup session.fuel progress,
        ∀ activation ∈ state.current :: state.callers, activation.WithinUsage := by
  have reliable : session.setup.file.Reliable := ⟨verified, unsaturated⟩
  have kept : ∀ state, State.Accounted session.setup.file state →
      (step session.setup state).Meets (State.Accounted session.setup.file) Unbroken :=
    fun _ => step_meets reliable
  constructor
  · intro method index fault ended
    cases begun : session.begin name arguments with
    | none => simp [invoke, begun] at ended
    | some progress =>
        have unbroken := run_meets kept
          (fun state accounted => exhausted_unbroken reliable accounted) session.fuel
          (begin_meets reliable widths begun)
        simp only [invoke_of_begin begun, settle] at ended
        split at ended
        · simp at ended
        · exact unbroken method index fault ended
  · intro progress begun state member activation activation_member
    obtain ⟨⟨depth, occupies⟩, awaited⟩ :=
      states_meet kept session.fuel (begin_meets reliable widths begun) state member
    rcases List.mem_cons.mp activation_member with rfl | waiting
    · exact occupies.withinUsage reliable (Nat.le_refl _)
    · exact awaited.withinUsage reliable activation waiting

/-- A method that calls itself and one that prints what it answers. -/
def recursiveFile : ClassFile :=
  { name := "Sums"
    methods :=
      [{ declaration :=
          { owner := "Sums", name := "sum", type := some ⟨[.int, .long], some .long⟩
            access := ⟨0x0008⟩, kind := .function, annotations := .empty }
         instructions :=
          [.load .int 0, .branchZero .gt ⟨0⟩, .load .long 1, .ret (some .long),
            .label ⟨0⟩, .load .int 0, .iconst (-1), .intArithmetic .add, .load .long 1, .lconst 5,
            .longArithmetic .add, .invoke .direct ⟨"Sums", "sum", ⟨[.int, .long], some .long⟩⟩,
            .ret (some .long)]
         maxStack := 5
         maxLocals := 3 },
        { declaration :=
          { owner := "Sums", name := "show", type := some ⟨[.int], none⟩
            access := ⟨0⟩, kind := .function, annotations := .empty }
          instructions :=
          [.getStatic Trace.console, .new Trace.stringBuilderClass, .dup,
            .invoke .special Trace.builderInit, .load .int 1,
            .invoke .direct Trace.currentTimeMillis,
            .invoke .direct ⟨"Sums", "sum", ⟨[.int, .long], some .long⟩⟩,
            .invoke .virtual (Trace.builderAppend .long), .invoke .virtual Trace.builderText,
            .invoke .virtual Trace.println, .ret none]
          maxStack := 5
          maxLocals := 2 }] }

theorem recursiveFile_verified : recursiveFile.Verified where
  inhabited := by simp [recursiveFile]
  verified := by
    simp only [recursiveFile, List.forall_mem_cons]
    exact ⟨⟨⟨5, 3, 13⟩, by decide +kernel⟩, ⟨⟨5, 2, 11⟩, by decide +kernel⟩, by simp⟩
  returns := by
    simp [recursiveFile, Instruction.effect, MethodType.resultSlots, ValueKind.width,
      FieldType.width]
  names := by
    simp [recursiveFile, Instruction.NamesWidths, Trace.console, Trace.builderInit,
      Trace.currentTimeMillis, Trace.builderAppend, Trace.builderText, Trace.println,
      Trace.systemClass, Trace.printStreamClass, Trace.stringBuilderClass, MethodType.resultSlots,
      FieldType.width]

theorem recursiveFile_unsaturated : recursiveFile.Unsaturated where
  counts := by
    simp [recursiveFile, Instruction.CountsSlots, Trace.builderInit,
      Trace.currentTimeMillis, Trace.builderAppend, Trace.builderText, Trace.println,
      MethodType.parameterWidth, MethodType.totalWidth, FieldType.width, CallKind.receiverSlots,
      slotCeiling]
  declares := by decide

theorem invoke_verified_recursiveFile :
    recursiveFile.Verified ∧ recursiveFile.Unsaturated ∧
    (∀ method, recursiveFile.method? "show" = some method →
      [Value.int 4].map Value.width = method.declaration.parameters.map FieldType.width) ∧
    (∀ method index fault,
      ((start recursiveFile (.steady 0 7) .reliable).invoke "show" [.int 4]).2 =
        .error (.fault method index fault) → fault.isStructural = false) ∧
    ∀ progress,
      (start recursiveFile (.steady 0 7) .reliable).begin "show" [.int 4] = some progress →
      ∀ state ∈ states ⟨recursiveFile, defaultCallDepth⟩ defaultFuel progress,
        ∀ activation ∈ state.current :: state.callers, activation.WithinUsage :=
  have widths : ∀ method, recursiveFile.method? "show" = some method →
      [Value.int 4].map Value.width = method.declaration.parameters.map FieldType.width := by
    rintro method ⟨⟩
    rfl
  ⟨recursiveFile_verified, recursiveFile_unsaturated, widths,
    @invoke_verified (start recursiveFile (.steady 0 7) .reliable) _ _ recursiveFile_verified
      recursiveFile_unsaturated widths⟩

end Session

/-! ## Slots that are not counted as they are -/

namespace Frame

/-- Arguments are stored as far as there are locals for them. -/
theorem layOut_longs (frame : Frame) (slot fitting more : Nat) (value : Int64)
    (fits : slot + 2 * fitting ≤ frame.locals.size)
    (full : frame.locals.size < slot + 2 * (fitting + 1)) :
    frame.layOut slot (.replicate (fitting + (more + 1)) (.long value)) =
      .error (.localOutOfRange (slot + 2 * fitting) frame.locals.size) := by
  induction fitting generalizing frame slot with
  | zero =>
      have outside : ¬slot + 2 ≤ frame.locals.size := by omega
      simp [List.replicate_succ, layOut, store, holds, Value.width, outside, outOfRange]
  | succ fitting ih =>
      have inside : slot + 2 ≤ frame.locals.size := by omega
      rw [Nat.succ_add, List.replicate_succ, layOut]
      simp only [store, holds, Value.width, inside, decide_true, if_true]
      rw [ih _ _ (by simp; omega) (by simp; omega)]
      simp
      omega

/-- Arguments are popped as far as there are operands. -/
theorem popArguments_ints (depth maxStack : UInt16) (locals : Array Value) (held more : Nat)
    (value : Int32) :
    popArguments ⟨.replicate held (.int value), depth, maxStack, locals⟩
      (.replicate (held + (more + 1)) .int) = .error .stackUnderflow := by
  have popped : ∀ arguments, popReversed ⟨.replicate held (.int value), depth, maxStack, locals⟩
      arguments (.replicate (held + (more + 1)) .int) = .error .stackUnderflow := by
    induction held generalizing depth with
    | zero =>
        intro arguments
        simp [List.replicate_succ, popReversed, popArgument, popKind, popInt, pop, Except.map]
    | succ held ih =>
        intro arguments
        rw [Nat.succ_add, List.replicate_succ, List.replicate_succ, popReversed]
        simp only [popArgument, popKind, popInt, pop, Except.map]
        exact ih _ _
  rw [popArguments, List.reverse_replicate]
  exact popped []

end Frame

namespace Session

/-- What is known of a method of the class below. -/
def wideDeclaration (name : String) (parameters : List FieldType) : Declaration :=
  { owner := "Wide", name, type := some ⟨parameters, none⟩, access := ⟨0x0008⟩, kind := .function
    annotations := .empty }

/-- A method of `parameters` parameters of two slots each. -/
def wideMethod (parameters : Nat) : Method :=
  { declaration := wideDeclaration "wide" (.replicate parameters .long)
    instructions := [.ret none]
    maxStack := 0
    maxLocals := 65535 }

/-- A call of a method of one parameter more than there are operands. -/
def wideCall (operands : Nat) : Instruction :=
  .invoke .direct ⟨"Wide", "many", ⟨.replicate (operands + 1) .int, none⟩⟩

/-- Operands and the call. -/
def spreadCode (operands : Nat) : List Instruction :=
  .replicate operands (.iconst 0) ++ [wideCall operands, .ret none]

/-- A method that makes the call. -/
def spreadMethod (operands : Nat) : Method :=
  { declaration := wideDeclaration "spread" []
    instructions := spreadCode operands
    maxStack := 65535
    maxLocals := 0 }

/-- A class of the two methods. -/
def wideFile (parameters operands : Nat) : ClassFile :=
  ⟨"Wide", [wideMethod parameters, spreadMethod operands]⟩

section Wide

variable {parameters operands : Nat}

theorem receiverSlots_wideDeclaration (name : String) (parameters : List FieldType) :
    (wideDeclaration name parameters).receiverSlots = 0 :=
  if_pos (by decide : (⟨0x0008⟩ : AccessFlags).isStatic = true)

theorem qualifiedName_wideDeclaration (name : String) (parameters : List FieldType) :
    (wideDeclaration name parameters).qualifiedName = "Wide" ++ "." ++ name := by
  have same : dotted "Wide" = "Wide" := by decide
  have named : "Wide".isEmpty = false := by decide
  simp [Declaration.qualifiedName, wideDeclaration, named, same]

theorem argumentCount_wideDeclaration {method : Method} {name : String}
    {parameters : List FieldType} (declared : method.declaration = wideDeclaration name parameters) :
    argumentCount method = parameters.length := by
  rw [argumentCount, declared, receiverSlots_wideDeclaration, Nat.zero_add]
  rfl

theorem begin_wideFile {name : String} {method : Method} (session : Session)
    (file_eq : session.setup.file = wideFile parameters operands)
    (found : (wideFile parameters operands).method? name = some method) (arguments : List Value) :
    session.begin name arguments =
      some (activate session.setup session.world [] method arguments) := by
  have static : method.declaration.access = ⟨0x0008⟩ := by
    rcases List.mem_pair.mp (List.mem_of_find?_eq_some found) with rfl | rfl <;> rfl
  rw [begin, file_eq, found]
  simp only [static]
  exact if_pos (by decide)

theorem getElem?_spreadCode_of_lt {index : Nat} (early : index < operands) :
    (spreadCode operands)[index]? = some (.iconst 0) := by
  rw [spreadCode, List.getElem?_append_left (by simpa using early),
    List.getElem?_replicate_of_lt early]

theorem getElem?_spreadCode_call : (spreadCode operands)[operands]? = some (wideCall operands) := by
  rw [spreadCode, List.getElem?_append_right (by simp), List.length_replicate, Nat.sub_self]
  rfl

theorem getElem?_spreadCode {index : Nat} {instruction : Instruction}
    (found : (spreadCode operands)[index]? = some instruction) :
    index < operands ∧ instruction = .iconst 0 ∨ index = operands ∧ instruction = wideCall operands ∨
      index = operands + 1 ∧ instruction = .ret none := by
  rcases Nat.lt_or_ge index operands with early | late
  · rw [getElem?_spreadCode_of_lt early] at found
    exact Or.inl ⟨early, (Option.some.inj found).symm⟩
  · rw [spreadCode, List.getElem?_append_right (by simpa using late),
      List.length_replicate] at found
    obtain ⟨further, rfl⟩ := Nat.exists_eq_add_of_le late
    rw [Nat.add_sub_cancel_left] at found
    rcases further with _ | _ | further
    · exact Or.inr (Or.inl ⟨rfl, (Option.some.inj found).symm⟩)
    · exact Or.inr (Or.inr ⟨rfl, (Option.some.inj found).symm⟩)
    · simp at found

theorem cases_of_mem_spreadCode {instruction : Instruction}
    (member : instruction ∈ spreadCode operands) :
    instruction = .iconst 0 ∨ instruction = wideCall operands ∨ instruction = .ret none := by
  obtain ⟨index, found⟩ := List.getElem?_of_mem member
  exact (getElem?_spreadCode found).imp And.right (Or.imp And.right And.right)

/-- With operands up to the ceiling, the call is taken to pop just these. -/
theorem effect_wideCall (full : operands = slotCeiling) :
    (wideCall operands).effect = ⟨operands, 0⟩ := by
  have counted : min slotCeiling (operands + 1) = operands := by omega
  simp [wideCall, Instruction.effect, CallKind.argumentSlots, MethodType.parameterSlots,
    MethodType.parameterWidth, Frame.totalWidth_replicate, FieldType.width, MethodType.resultSlots,
    CallKind.receiverSlots, counted]
  omega

theorem assignment_spreadCode (full : operands = slotCeiling) :
    Assignment (spreadMethod operands).limits (spreadCode operands)
      fun index => if index ≤ operands then index else 0 where
  start := rfl
  fits {index instruction} _ found := by
    have room : (spreadMethod operands).limits.maxStack = operands := full.symm
    rcases getElem?_spreadCode found with ⟨early, rfl⟩ | ⟨rfl, rfl⟩ | ⟨rfl, rfl⟩
    · refine ⟨Nat.zero_le _, ?_, Nat.zero_le _⟩
      rw [if_pos early.le, room]
      exact early
    · refine ⟨?_, ?_, Nat.zero_le _⟩
      · simp [effect_wideCall full]
      · simp [after, effect_wideCall full]
    · refine ⟨Nat.zero_le _, ?_, Nat.zero_le _⟩
      simp [after, Instruction.effect]
  passes {index target instruction} _ found passing := by
    obtain ⟨_, found', ⟨goes_on, rfl, -⟩ | ⟨label, branches, -⟩⟩ := passing
    · obtain rfl := Option.some.inj (found.symm.trans found')
      rcases getElem?_spreadCode found with ⟨early, rfl⟩ | ⟨rfl, rfl⟩ | ⟨rfl, rfl⟩
      · rw [if_pos early.le, if_pos (Nat.succ_le_of_lt early)]
        rfl
      · simp [after, effect_wideCall full]
      · simp [Instruction.endsBlock] at goes_on
    · obtain rfl := Option.some.inj (found.symm.trans found')
      rcases getElem?_spreadCode found with ⟨-, rfl⟩ | ⟨-, rfl⟩ | ⟨-, rfl⟩ <;>
        simp [wideCall, Instruction.branchTarget?] at branches

theorem assignment_wideMethod :
    Assignment (wideMethod parameters).limits (wideMethod parameters).instructions fun _ => 0 where
  start := rfl
  fits _ found := by
    obtain rfl := List.mem_singleton.mp (List.mem_of_getElem? found)
    exact ⟨Nat.le_refl 0, Nat.le_refl 0, Nat.zero_le _⟩
  passes _ found _ := by
    obtain rfl := List.mem_singleton.mp (List.mem_of_getElem? found)
    rfl

/-- Both methods verify, and nothing is wrong with what they name. -/
theorem wideFile_verified (full : operands = slotCeiling) :
    (wideFile parameters operands).Verified where
  inhabited := by simp [wideFile, wideMethod, spreadMethod, spreadCode]
  verified := by
    simp only [wideFile, List.forall_mem_cons]
    refine ⟨?_, ?_, by simp⟩
    · exact Method.exists_usage_of_assignment (by simp [wideMethod]) (Nat.min_le_left _ _)
        (Flow.wellLabelled_of_straight (by
          simp [wideMethod, Instruction.marked?, Instruction.branchTarget?])) rfl
        assignment_wideMethod
    · have labelled : Flow.WellLabelled (spreadMethod operands).instructions := by
        refine Flow.wellLabelled_of_straight fun instruction member => ?_
        rcases cases_of_mem_spreadCode member with rfl | rfl | rfl <;> exact ⟨rfl, rfl⟩
      have ends : (FlowGraph.ofCode (spreadMethod operands).instructions).fallsOffEnd = false := by
        rw [FlowGraph.fallsOffEnd_ofCode]
        simp [spreadMethod, spreadCode, Instruction.endsBlock]
      refine Method.exists_usage_of_assignment (by simp [spreadMethod, spreadCode]) ?_ labelled ends
        (assignment_spreadCode full)
      rw [Declaration.argumentSlots, spreadMethod, receiverSlots_wideDeclaration]
      exact Nat.le_refl 0
  returns := by
    simp only [wideFile, List.forall_mem_cons]
    refine ⟨?_, ?_, by simp⟩
    · rintro type ⟨⟩ kind member
      cases List.mem_singleton.mp member
      rfl
    · rintro type ⟨⟩ kind member
      rcases cases_of_mem_spreadCode member with same | same | same <;> cases same
      rfl
  names := by
    simp only [wideFile, List.forall_mem_cons]
    refine ⟨?_, ?_, by simp⟩
    · simp [wideMethod, Instruction.NamesWidths]
    · intro instruction member
      rcases cases_of_mem_spreadCode member with rfl | rfl | rfl
      · trivial
      · simp [wideCall, Instruction.NamesWidths, Trace.systemClass]
      · trivial

theorem widths_wide (method : Method)
    (found : (wideFile parameters operands).method? "wide" = some method) :
    (List.replicate parameters (Value.long 0)).map Value.width =
      method.declaration.parameters.map FieldType.width := by
  obtain rfl : wideMethod parameters = method := Option.some.inj found
  simp [Declaration.parameters, wideMethod, wideDeclaration, Value.width, FieldType.width]

theorem widths_spread (method : Method)
    (found : (wideFile parameters operands).method? "spread" = some method) :
    ([] : List Value).map Value.width = method.declaration.parameters.map FieldType.width := by
  obtain rfl : spreadMethod operands = method := Option.some.inj found
  rfl

/-- With 32768 parameters or more, the arguments take more locals than there are. -/
theorem invoke_wide (more : Nat) (many : parameters = 32767 + (more + 1)) :
    ((start (wideFile parameters operands) (.steady 0 0) .reliable).invoke "wide"
      (.replicate parameters (.long 0))).2 =
        .error (.fault "Wide.wide" 0 (.localOutOfRange 65534 65535)) := by
  have counted :
      (List.replicate parameters (Value.long 0)).length = argumentCount (wideMethod parameters) := by
    rw [argumentCount_wideDeclaration rfl, List.length_replicate, List.length_replicate]
  have laid : (Frame.empty (wideMethod parameters).maxStack
      (wideMethod parameters).maxLocals.toNat).layOut 0 (.replicate parameters (.long 0)) =
        .error (.localOutOfRange 65534 65535) := by
    have inside := Frame.layOut_longs (.empty 0 65535) 0 32767 more 0 (by simp [Frame.empty])
      (by simp [Frame.empty])
    rw [← many, Frame.empty, Array.size_replicate] at inside
    exact inside
  have fails (world : World) : activate ⟨wideFile parameters operands, defaultCallDepth⟩ world []
      (wideMethod parameters) (.replicate parameters (.long 0)) =
        .ended world (.error (.fault "Wide.wide" 0 (.localOutOfRange 65534 65535))) := by
    rw [activate, if_neg (not_not.mpr counted), if_neg (by simp [defaultCallDepth]), laid]
    simp only [failureAt, wideMethod, qualifiedName_wideDeclaration]
    rfl
  rw [invoke_of_begin (begin_wideFile _ rfl rfl _)]
  simp only [start, fails, run_ended]
  rfl

/-- The run of the method with a number of operands. -/
def spreading (operands : Nat) (world : World) (held : Nat) : State :=
  ⟨world, ⟨.ofMethod (spreadMethod operands), ⟨.replicate held (.int 0), .ofNat held, 65535, #[]⟩,
    held⟩, []⟩

theorem step_spreading (setup : Setup) (world : World) {held : Nat} (room : held < operands) :
    step setup (spreading operands world held) = .running (spreading operands world (held + 1)) := by
  simp [step, spreading, Body.instruction?_eq, Body.ofMethod, spreadMethod,
    getElem?_spreadCode_of_lt room, perform, proceed, Frame.push_of_highest, Value.width,
    List.replicate_succ, UInt16.ofNat_add]

/-- The call takes more operands than there are. -/
theorem step_spreading_call (setup : Setup) (world : World) :
    step setup (spreading operands world operands) =
      .ended world (.error (.fault "Wide.spread" operands .stackUnderflow)) := by
  have popped := Frame.popArguments_ints (.ofNat operands) 65535 #[] operands 0 0
  rw [Nat.zero_add] at popped
  simp only [step, spreading, Body.instruction?_eq, Body.ofMethod, spreadMethod,
    getElem?_spreadCode_call, wideCall, perform, popped, failureAt, qualifiedName_wideDeclaration]
  rfl

/-- Whatever budget is left behind the operands, the call fails. -/
theorem run_spreading (setup : Setup) (world : World) (more : Nat) {held count : Nat}
    (total : held + count = operands) :
    run setup (count + more + 1) (.running (spreading operands world held)) =
      (world, .error (.fault "Wide.spread" operands .stackUnderflow)) := by
  induction count generalizing held with
  | zero =>
      obtain rfl : held = operands := total
      rw [run, step_spreading_call, run_ended]
  | succ count ih =>
      rw [run, step_spreading setup world (by omega), Nat.add_right_comm]
      exact ih (by omega)

theorem invoke_spread (more : Nat) (budget : defaultFuel = operands + more + 1) :
    ((start (wideFile parameters operands) (.steady 0 0) .reliable).invoke "spread" []).2 =
      .error (.fault "Wide.spread" operands .stackUnderflow) := by
  have activates (world : World) :
      activate ⟨wideFile parameters operands, defaultCallDepth⟩ world [] (spreadMethod operands) [] =
        .running (spreading operands world 0) := by
    rw [activate, argumentCount_wideDeclaration rfl, if_neg (by simp),
      if_neg (by simp [defaultCallDepth])]
    rfl
  have ran := run_spreading ⟨wideFile parameters operands, defaultCallDepth⟩
    (.initial (.steady 0 0) .reliable) more (Nat.zero_add operands)
  rw [invoke_of_begin (begin_wideFile _ rfl rfl _)]
  simp only [start, budget, activates, ran]
  rfl

end Wide

/-- Where slots are not counted as they are, methods that verify meet structural faults: their
arguments exceed the locals, or the operands of a call are missing. -/
theorem not_sound_saturated :
    (wideFile 40000 65535).Verified ∧
      (∀ method, (wideFile 40000 65535).method? "wide" = some method →
        (List.replicate 40000 (Value.long 0)).map Value.width =
          method.declaration.parameters.map FieldType.width) ∧
      ((start (wideFile 40000 65535) (.steady 0 0) .reliable).invoke "wide"
        (.replicate 40000 (.long 0))).2 =
          .error (.fault "Wide.wide" 0 (.localOutOfRange 65534 65535)) ∧
      (∀ method, (wideFile 40000 65535).method? "spread" = some method →
        ([] : List Value).map Value.width = method.declaration.parameters.map FieldType.width) ∧
      ((start (wideFile 40000 65535) (.steady 0 0) .reliable).invoke "spread" []).2 =
        .error (.fault "Wide.spread" 65535 .stackUnderflow) ∧
      (Fault.localOutOfRange 65534 65535).isStructural ∧ Fault.stackUnderflow.isStructural :=
  ⟨wideFile_verified rfl, widths_wide, invoke_wide 7232 rfl, widths_spread,
    invoke_spread 9934464 rfl, rfl, rfl⟩

end Session
end Machine
end MethodTracing
