import MethodTracing.Proofs.Machine.Bodies
import MethodTracing.Proofs.Machine.Mirroring
import MethodTracing.Proofs.Trace.Story

/-!
# Keeping up with an original run

Every step of a run over the original class is matched by some steps of a run over the woven one:
by one step as a rule, by the entry sequence too when a selected method begins, and by the exit
sequence when it returns.  On the way the woven run prints the lines that tell of the original step.
-/

namespace MethodTracing

namespace Pipeline

/-- Index in the woven body at which control arrives that was to arrive at `index`. -/
def destination (pipeline : Pipeline) (method : Method) (index : Nat) : Nat :=
  if pipeline.selects method.declaration then Weaving.offset method.instructions index else index

/-- Index in the woven body of the instruction that was at `index`; an index past the end moves to
the end. -/
def place (pipeline : Pipeline) (method : Method) (index : Nat) : Nat :=
  if pipeline.selects method.declaration then Weaving.position method.instructions index else index

theorem destination_succ (pipeline : Pipeline) (method : Method) (index : Nat) :
    pipeline.destination method (index + 1) = pipeline.place method index + 1 := by
  unfold destination place
  split
  · exact Weaving.offset_succ method.instructions index
  · rfl

end Pipeline

namespace Machine

open Trace Weaving

/-! ## Runs in parts -/

/-- A run comes from one point to another after a number of steps. -/
def Leads (setup : Setup) (count : Nat) (before after : Progress) : Prop :=
  ∀ fuel, run setup (count + fuel) before = run setup fuel after

section Leads

variable {setup : Setup}

theorem Leads.refl (progress : Progress) : Leads setup 0 progress progress :=
  fun fuel => by rw [Nat.zero_add]

theorem Leads.trans {left right : Nat} {first second third : Progress}
    (before : Leads setup left first second) (after : Leads setup right second third) :
    Leads setup (left + right) first third :=
  fun fuel => by rw [Nat.add_assoc, before, after]

theorem leads_step (setup : Setup) (state : State) :
    Leads setup 1 (.running state) (step setup state) :=
  fun fuel => by rw [Nat.add_comm, run]

/-- A sequence that runs through is run through where it stands in a body. -/
theorem leads_performs {world after : World} {frame last : Frame} {code : List Instruction}
    (performs : Performs setup.file world frame code after last) (body : Body)
    (callers : List Activation) {start : Nat}
    (standing : ∀ place < code.length, body.method.instructions[start + place]? = code[place]?) :
    Leads setup code.length (.running ⟨world, ⟨body, frame, start⟩, callers⟩)
      (.running ⟨after, ⟨body, last, start + code.length⟩, callers⟩) := by
  induction performs generalizing start with
  | nil => exact .refl _
  | @cons world between after frame middle last instruction rest performed _ ih =>
      have found : body.method.instructions[start]? = some instruction := by
        simpa using standing 0 (by simp)
      have first : Leads setup 1 (.running ⟨world, ⟨body, frame, start⟩, callers⟩)
          (.running ⟨between, ⟨body, middle, start + 1⟩, callers⟩) := by
        have stepped := leads_step setup ⟨world, ⟨body, frame, start⟩, callers⟩
        simpa only [step, body.instruction?_eq, found, performed] using stepped
      have others := first.trans (ih fun place inside => by
        have next := standing (place + 1) (by simpa using inside)
        rw [List.getElem?_cons_succ] at next
        rw [← next, Nat.add_right_comm, Nat.add_assoc])
      simp only [List.length_cons]
      rwa [Nat.add_comm 1, Nat.add_assoc start, Nat.add_comm 1] at others

end Leads

/-! ## Agreement of classes -/

/-- The class of one run is woven from that of the other one; activations may be nested alike. -/
structure Setup.Matches (pipeline : Pipeline) (setup woven : Setup) : Prop where
  names : woven.file.name = setup.file.name
  methods : List.Forall₂ (Pipeline.Weaves pipeline.passes) setup.file.methods woven.file.methods
  callDepth : woven.callDepth = setup.callDepth

/-- The first methods with a property that weaving keeps correspond. -/
theorem find?_related {α β : Type} {related : α → β → Prop} {before : List α} {after : List β}
    {test : α → Bool} {test' : β → Bool} (all : List.Forall₂ related before after)
    (kept : ∀ first second, related first second → test' second = test first) :
    Option.Rel related (before.find? test) (after.find? test') := by
  induction all with
  | nil => exact .none
  | cons here _ ih =>
      rw [List.find?_cons, List.find?_cons, kept _ _ here]
      split
      · exact .some here
      · exact ih

section Classes

variable {pipeline : Pipeline} {before after : Method}

theorem declaration_weaves (weaves : Pipeline.Weaves pipeline.passes before after) :
    after.declaration =
      { before.declaration with annotations := after.declaration.annotations } := by
  rcases weaves.selected_or_eq with ⟨-, plan, woven⟩ | ⟨-, rfl⟩
  · exact woven.declaration
  · rfl

theorem qualifiedName_weaves (weaves : Pipeline.Weaves pipeline.passes before after) :
    after.declaration.qualifiedName = before.declaration.qualifiedName := by
  rw [declaration_weaves weaves]
  rfl

theorem failureAt_weaves (weaves : Pipeline.Weaves pipeline.passes before after) (index : Nat)
    (fault : Fault) : failureAt after index fault = failureAt before index fault := by
  rw [failureAt, qualifiedName_weaves weaves]
  rfl

theorem argumentCount_weaves (weaves : Pipeline.Weaves pipeline.passes before after) :
    argumentCount after = argumentCount before := by
  rw [argumentCount, declaration_weaves weaves]
  rfl

theorem callee?_related {setup woven : Setup} (setups : setup.Matches pipeline woven)
    (call : MethodRef) :
    Option.Rel (Pipeline.Weaves pipeline.passes) (setup.file.callee? call)
      (woven.file.callee? call) :=
  find?_related setups.methods fun _ _ weaves => by rw [declaration_weaves weaves]

theorem method?_related {setup woven : Setup} (setups : setup.Matches pipeline woven)
    (name : String) :
    Option.Rel (Pipeline.Weaves pipeline.passes) (setup.file.method? name)
      (woven.file.method? name) :=
  find?_related setups.methods fun _ _ weaves => by rw [declaration_weaves weaves]

/-- The frame of a selected method has four more locals and operands. -/
theorem limits_weaves (weaves : Pipeline.Weaves pipeline.passes before after) :
    ∃ extra, after.maxStack.toNat = before.maxStack.toNat + extra ∧
      after.maxLocals.toNat = before.maxLocals.toNat + extra ∧
      (pipeline.selects before.declaration → extra = 4) := by
  rcases weaves.selected_or_eq with ⟨-, plan, woven⟩ | ⟨not_selected, rfl⟩
  · exact ⟨4, woven.maxStack, woven.maxLocals, fun _ => rfl⟩
  · exact ⟨0, rfl, rfl, by simp [not_selected]⟩

end Classes

/-! ## Agreement of activations -/

/-- An activation of a method of the woven class agrees with one of the original method; if the
method is selected, the time at which it began is kept. -/
structure Activation.Matches (pipeline : Pipeline) (images : List ObjectId) (margin : Margin)
    (activation image : Activation) : Prop where
  weaves : Pipeline.Weaves pipeline.passes activation.body.method image.body.method
  frame : activation.frame.Matches images margin image.frame
  slots : margin.slots = activation.body.method.maxLocals.toNat
  began : if pipeline.selects activation.body.method.declaration then
      margin.extra = 4 ∧ margin.began.isSome
    else margin.began = none

/-- Waiting activations agree, and will go on at indices that agree. -/
inductive Waiting (pipeline : Pipeline) (images : List ObjectId) :
    List Margin → List Activation → List Activation → Prop
  | nil : Waiting pipeline images [] [] []
  | cons {margin : Margin} {margins : List Margin} {caller image : Activation}
      {callers others : List Activation} : caller.Matches pipeline images margin image →
      image.index + 1 = pipeline.destination caller.body.method (caller.index + 1) →
      Waiting pipeline images margins callers others →
      Waiting pipeline images (margin :: margins) (caller :: callers) (image :: others)

/-- Two runs between two instructions agree in all but the indices of the next instructions. -/
structure State.Matches (pipeline : Pipeline) (images : List ObjectId) (margin : Margin)
    (margins : List Margin) (state image : State) : Prop where
  world : state.world.Matches images image.world
  current : state.current.Matches pipeline images margin image.current
  callers : Waiting pipeline images margins state.callers image.callers

/-- The times at which selected methods began that have not returned. -/
def starts (margins : List Margin) : List Int64 :=
  margins.filterMap Margin.began

section Agreement

variable {pipeline : Pipeline} {images more : List ObjectId} {margin : Margin}

theorem Activation.Matches.mono {activation image : Activation} (grows : images <+: more)
    (matched : activation.Matches pipeline images margin image) :
    activation.Matches pipeline more margin image :=
  { matched with frame := matched.frame.mono grows }

theorem Waiting.mono {margins : List Margin} {callers others : List Activation}
    (grows : images <+: more) (waiting : Waiting pipeline images margins callers others) :
    Waiting pipeline more margins callers others := by
  induction waiting with
  | nil => exact .nil
  | cons caller index_eq _ ih => exact .cons (caller.mono grows) index_eq ih

theorem Waiting.length_eq {margins : List Margin} {callers others : List Activation}
    (waiting : Waiting pipeline images margins callers others) :
    others.length = callers.length := by
  induction waiting with
  | nil => rfl
  | cons _ _ _ ih => simp [ih]

end Agreement

/-! ## Agreement of outcomes -/

/-- Failures that another budget, another console or a larger frame may avoid. -/
def CallError.isAvoidable : CallError → Bool
  | .outOfFuel | .output _ => true
  | .fault _ _ cause => cause.isLimit
  | _ => false

/-- Equal outcomes; the instruction that fails, the one that was executed last, is found where
weaving moved it. -/
inductive Agrees (pipeline : Pipeline) (last : Option State) (world image : World) :
    Except CallError (Option Value) → Except CallError (Option Value) → Prop
  | nothing : Agrees pipeline last world image (.ok none) (.ok none)
  | value {value value' : Value} : value.Same world image value' →
      Agrees pipeline last world image (.ok (some value)) (.ok (some value'))
  | error {error : CallError} : (∀ method index fault, error ≠ .fault method index fault) →
      Agrees pipeline last world image (.error error) (.error error)
  | fault {state : State} (fault : Fault) : last = some state →
      Agrees pipeline last world image
        (.error (failureAt state.current.body.method state.current.index fault))
        (.error (failureAt state.current.body.method
          (pipeline.place state.current.body.method state.current.index) fault))

theorem Agrees.ask {pipeline : Pipeline} {last : Option State} {world image : World}
    {outcome outcome' : Except CallError (Option Value)}
    (agrees : Agrees pipeline last world image outcome outcome') (request : Request) :
    Agrees pipeline last (world.ask request) (image.ask request) outcome outcome' := by
  cases agrees with
  | nothing => exact .nothing
  | value same => exact .value (same.ask request)
  | error plain => exact .error plain
  | fault fault executed => exact .fault fault executed

/-- Two runs agree where they have got to. -/
inductive Progress.Matches (pipeline : Pipeline) (last : Option State) :
    List Int64 → Progress → Progress → Prop
  | running {images : List ObjectId} {margin : Margin} {margins : List Margin}
      {state image : State} : state.Matches pipeline images margin margins image →
      image.current.index = pipeline.destination state.current.body.method state.current.index →
      Matches pipeline last (starts (margin :: margins)) (.running state) (.running image)
  | ended {images : List ObjectId} {times : List Int64} {world image : World}
      {outcome outcome' : Except CallError (Option Value)} : world.Matches images image →
      Agrees pipeline last world image outcome outcome' →
      Matches pipeline last times (.ended world outcome) (.ended image outcome')

/-! ## What the woven run prints on the way -/

/-- What will have been printed when the rest of a story is told. -/
def outlook (world : World) (times : List Int64) (rest : List Remark) : List String :=
  world.printed.toList ++ spell world.clock times rest

/-- On the way from one world to another some remarks are told, in a number of steps that the
remarks allow for. -/
structure Narrates (remarks : List Remark) (count budget : Nat) (world : World) (times : List Int64)
    (later : World) (times' : List Int64) : Prop where
  told : ∀ rest, outlook world times (remarks ++ rest) = outlook later times' rest
  steps : count + 16 * times'.length ≤ budget + 16 * times.length + 21 * entries remarks

theorem Narrates.refl (world : World) (times : List Int64) :
    Narrates [] 0 0 world times world times :=
  ⟨fun _ => rfl, by simp [entries]⟩

theorem Narrates.trans {left right : List Remark} {count count' budget budget' : Nat}
    {first second third : World} {times times' times'' : List Int64}
    (before : Narrates left count budget first times second times')
    (after : Narrates right count' budget' second times' third times'') :
    Narrates (left ++ right) (count + count') (budget + budget') first times third times'' := by
  refine ⟨fun rest => ?_, ?_⟩
  · rw [List.append_assoc, before.told, after.told]
  · have first_steps := before.steps
    have second_steps := after.steps
    rw [entries_append]
    omega

/-- The woven run keeps up with a point of the original run. -/
def KeepsUp (pipeline : Pipeline) (setup : Setup) (last : Option State) (remarks : List Remark)
    (budget : Nat) (times : List Int64) (progress image : Progress) : Prop :=
  (∃ world error, progress = .ended world (.error error) ∧ error.isAvoidable = true) ∨
    ∃ count times' reached, Leads setup count image reached ∧
      progress.Matches pipeline last times' reached ∧
      Narrates remarks count budget image.world times reached.world times'

theorem KeepsUp.after {pipeline : Pipeline} {setup : Setup} {last : Option State}
    {left right : List Remark} {count budget budget' : Nat} {times times' : List Int64}
    {progress image between : Progress} (leads : Leads setup count image between)
    (narrates : Narrates left count budget image.world times between.world times')
    (keeps_up : KeepsUp pipeline setup last right budget' times' progress between) :
    KeepsUp pipeline setup last (left ++ right) (budget + budget') times progress image := by
  rcases keeps_up with avoidable | ⟨further, times'', reached, others, matched, rest⟩
  · exact Or.inl avoidable
  · exact Or.inr
      ⟨count + further, times'', reached, leads.trans others, matched, narrates.trans rest⟩

/-! ## Bodies -/

section Bodies

variable {pipeline : Pipeline} {before after : Method}

/-- An instruction is found where weaving moved it. -/
theorem getElem?_place (weaves : Pipeline.Weaves pipeline.passes before after) {index : Nat}
    {instruction : Instruction} (found : before.instructions[index]? = some instruction) :
    after.instructions[pipeline.place before index]? = some instruction := by
  unfold Pipeline.place
  rcases weaves.selected_or_eq with ⟨selected, plan, woven⟩ | ⟨not_selected, rfl⟩
  · rw [if_pos selected, woven.instructions]
    exact getElem?_position found
  · rw [not_selected, if_neg Bool.false_ne_true]
    exact found

/-- Where there is no further instruction, there is none in the woven body. -/
theorem getElem?_destination_eq_none (weaves : Pipeline.Weaves pipeline.passes before after)
    {index : Nat} (beyond : before.instructions[index]? = none) :
    after.instructions[pipeline.destination before index]? = none ∧
      pipeline.place before index = pipeline.destination before index := by
  rw [List.getElem?_eq_none_iff] at beyond
  unfold Pipeline.place Pipeline.destination
  rcases weaves.selected_or_eq with ⟨selected, plan, woven⟩ | ⟨not_selected, rfl⟩
  · rw [if_pos selected, if_pos selected, woven.instructions, List.getElem?_eq_none_iff,
      length_traced]
    refine ⟨offset_le_offset _ beyond, ?_⟩
    rw [position, offset, List.take_of_length_le beyond, List.take_of_length_le (by omega)]
  · simp only [not_selected, if_neg Bool.false_ne_true, List.getElem?_eq_none_iff]
    exact ⟨beyond, trivial⟩

/-- Labels lead where weaving moved them. -/
theorem place?_destination {body image : Body}
    (weaves : Pipeline.Weaves pipeline.passes body.method image.method) (target : Label) :
    image.place? target = (body.place? target).map (pipeline.destination body.method) := by
  rcases weaves.selected_or_eq with ⟨selected, plan, woven⟩ | ⟨not_selected, same⟩
  · have labelled : Flow.WellLabelled image.method.instructions := by
      rw [woven.instructions]
      exact wellLabelled_traced woven.labelled
    have moved : pipeline.destination body.method = offset body.method.instructions := by
      funext index
      exact if_pos selected
    rw [image.place?_eq_labelPosition? labelled.distinct, woven.instructions,
      labelPosition?_traced woven.labelled, body.place?_eq_labelPosition? woven.labelled.distinct,
      moved]
  · have unmoved : pipeline.destination body.method = id := by
      funext index
      rw [Pipeline.destination, not_selected, if_neg Bool.false_ne_true]
      rfl
    rw [image.place?_eq, same, ← body.place?_eq, unmoved, Option.map_id_fun, id]

end Bodies

/-! ## Entry and exit -/

section Sequences

variable {setup : Setup} {images : List ObjectId} {world image : World} {frame frame' : Frame}
  {before : Method} {plan : FramePlan}

/-- A time may be kept past the locals of the smaller frame. -/
theorem Frame.Matches.keep {margin : Margin} (matched : frame.Matches images margin frame')
    {slot : Nat} (beyond : margin.slots ≤ slot) (time : Int64) {began : Option Int64}
    (kept : ∀ earlier, began = some earlier →
      (keepTime frame'.locals slot time).getD margin.slots .top = .long earlier) :
    frame.Matches images { margin with began }
      { frame' with locals := keepTime frame'.locals slot time } := by
  refine { matched with
    size := by simpa using matched.size
    locals := fun other inside => ?_
    began := kept }
  have inside : other < margin.slots := inside
  rw [getD_keepTime_of_ne (by omega) (by omega)]
  exact matched.locals other inside

/-- The larger frame has room for as many more operands as its limit is higher. -/
theorem Frame.Matches.room_beyond {margin : Margin}
    (matched : frame.Matches images margin frame') :
    frame'.depth.toNat + margin.extra ≤ frame'.maxStack.toNat := by
  have within := UInt16.le_iff_toNat_le.mp matched.counted.depth_le
  rw [matched.depth, matched.room]
  omega

/-- When an activation of an instrumented method begins, it runs through the entry sequence. -/
theorem leads_entry (body : Body) (callers : List Activation)
    (woven : Instrumented before body.method plan) (worlds : world.Matches images image)
    (frames : frame.Matches images ⟨before.maxLocals.toNat, 4, none⟩ frame')
    (writable : image.sink.IsReliable) :
    ∃ later entered, Leads setup 5 (.running ⟨image, ⟨body, frame', 0⟩, callers⟩)
        (.running ⟨later, ⟨body, entered, 5⟩, callers⟩) ∧
      world.Matches images later ∧
      frame.Matches images ⟨before.maxLocals.toNat, 4, some image.clock.now⟩ entered ∧
      ∀ times, Narrates [.entered before.declaration.name] 5 0 image times later
        (image.clock.now :: times) := by
  have start_eq := woven.startSlot
  have room : frame'.depth.toNat + 4 ≤ frame'.maxStack.toNat := frames.room_beyond
  have size : frame'.locals.size = before.maxLocals.toNat + 4 := frames.size
  obtain ⟨later, announced, performs⟩ := performs_entry setup.file frame' before.declaration.name
    worlds.coherent (writable.refusal?_eq _) (by omega)
    (show plan.startSlot.toNat + 2 ≤ frame'.locals.size by omega)
  refine ⟨later, _, leads_performs performs body callers fun place inside => ?_,
    worlds.keep announced.extends_before announced.coherent
      (announced.sink_eq ▸ worlds.sink.after_image writable _), ?_,
    fun times => ⟨fun rest => ?_, ?_⟩⟩
  · rw [Nat.zero_add, woven.instructions]
    exact getElem?_entry inside
  · refine frames.keep (show before.maxLocals.toNat ≤ plan.startSlot.toNat by omega)
      image.clock.now fun earlier same => ?_
    obtain rfl := Option.some.inj same
    rw [start_eq]
    exact getD_keepTime (by omega)
  · simp [outlook, spell, announced.printed_eq, announced.clock_eq, World.readClock, Clock.tick]
  · have once : entries [.entered before.declaration.name] = 1 := rfl
    rw [once, List.length_cons]
    omega

/-- Before an activation of an instrumented method returns, it runs through the exit sequence. -/
theorem leads_exit (body : Body) (callers : List Activation)
    (woven : Instrumented before body.method plan) (worlds : world.Matches images image)
    {began : Int64}
    (frames : frame.Matches images ⟨before.maxLocals.toNat, 4, some began⟩ frame')
    (writable : image.sink.IsReliable) {index : Nat} {instruction : Instruction}
    (found : before.instructions[index]? = some instruction) (returns : instruction.isReturn) :
    ∃ later left, Leads setup 16
        (.running ⟨image, ⟨body, frame', offset before.instructions index⟩, callers⟩)
        (.running ⟨later, ⟨body, left, position before.instructions index⟩, callers⟩) ∧
      world.Matches images later ∧
      frame.Matches images ⟨before.maxLocals.toNat, 4, some began⟩ left ∧
      ∀ times,
        Narrates [.left before.declaration.name] 16 0 image (began :: times) later times := by
  have start_eq := woven.startSlot
  have end_eq := woven.endSlot
  have held := frames.began began rfl
  have size : frame'.locals.size = before.maxLocals.toNat + 4 := frames.size
  simp only [← start_eq] at held
  obtain ⟨later, announced, performs⟩ := performs_exit setup.file frame' before.declaration.name
    worlds.coherent (writable.refusal?_eq _) frames.room_beyond (by omega) held
    (show plan.endSlot.toNat + 2 ≤ frame'.locals.size by omega)
  rw [position_eq found, if_pos returns]
  refine ⟨later, _, leads_performs performs body callers fun place inside => ?_,
    worlds.keep announced.extends_before announced.coherent
      (announced.sink_eq ▸ worlds.sink.after_image writable _), ?_,
    fun times => ⟨fun rest => ?_, ?_⟩⟩
  · rw [woven.instructions]
    exact getElem?_exit found returns inside
  · refine frames.keep (by simp only; omega) _ fun earlier same => ?_
    obtain rfl := Option.some.inj same
    rw [getD_keepTime_of_ne (by simp only; omega) (by simp only; omega), ← start_eq]
    exact held
  · simp [outlook, spell, announced.printed_eq, announced.clock_eq, World.readClock, Clock.tick]
  · simp only [List.length_cons]
    omega

end Sequences

/-! ## Calls and returns -/

section Steps

variable {pipeline : Pipeline} {setup woven : Setup} {images : List ObjectId}
  {margins : List Margin} {world image : World} {callers others : List Activation}
  {last : Option State}

/-- The end of the original run is kept up with by an end of the woven run. -/
theorem keepsUp_ended {outcome outcome' : Except CallError (Option Value)} {times : List Int64}
    (worlds : world.Matches images image)
    (agrees : Agrees pipeline last world image outcome outcome') (depth : Nat) :
    KeepsUp pipeline woven last (pipeline.beginning depth (.ended world outcome)) 0 times
      (.ended world outcome) (.ended image outcome') :=
  Or.inr ⟨0, times, _, .refl _, .ended worlds agrees, .refl image times⟩

/-- Both runs go on in the methods that they are in. -/
theorem keepsUp_running {margin : Margin} {state other : State} {depth : Nat} {times : List Int64}
    (shallow : state.callers.length < depth) (same_times : times = starts (margin :: margins))
    (matched : state.Matches pipeline images margin margins other)
    (index_eq : other.current.index =
      pipeline.destination state.current.body.method state.current.index) :
    KeepsUp pipeline woven last (pipeline.beginning depth (.running state)) 0 times
      (.running state) (.running other) := by
  rw [pipeline.beginning_of_lt shallow, same_times]
  exact Or.inr ⟨0, _, _, .refl _, .running matched index_eq, .refl _ _⟩

/-- A method of the woven class is begun as the original one is. -/
theorem keepsUp_activate (setups : setup.Matches pipeline woven) {method method' : Method}
    (weaves : Pipeline.Weaves pipeline.passes method method')
    (worlds : world.Matches images image)
    (waiting : Waiting pipeline images margins callers others) {arguments arguments' : List Value}
    (related : List.Forall₂ (Value.Matches images) arguments arguments')
    (writable : image.sink.IsReliable ∨
      entries (pipeline.beginning callers.length
        (activate setup world callers method arguments)) = 0) :
    KeepsUp pipeline woven last
      (pipeline.beginning callers.length (activate setup world callers method arguments)) 0
      (starts margins) (activate setup world callers method arguments)
      (activate woven image others method' arguments') := by
  unfold activate at *
  rw [argumentCount_weaves weaves, ← related.length_eq, setups.callDepth, waiting.length_eq,
    qualifiedName_weaves weaves]
  by_cases miscounted : arguments.length ≠ argumentCount method
  · simp only [if_pos miscounted]
    exact keepsUp_ended worlds (.error (by simp)) _
  simp only [if_neg miscounted] at writable ⊢
  by_cases deep : setup.callDepth ≤ callers.length
  · simp only [if_pos deep]
    exact keepsUp_ended worlds (.error (by simp)) _
  simp only [if_neg deep] at writable ⊢
  obtain ⟨extra, maxStack_eq, maxLocals_eq, extra_eq⟩ := limits_weaves weaves
  have empties := Frame.matches_empty images method.maxLocals.toNat maxStack_eq
  rw [← maxLocals_eq] at empties
  rcases (Frame.layOut_follows empties 0 related).outcomes with
    ⟨frame, frame', laid, laid', frames⟩ | ⟨fault, laid, -⟩
  · simp only [laid, laid', Pipeline.beginning, Nat.le_refl, if_true, Pipeline.arrival,
      Body.ofMethod] at writable ⊢
    rcases weaves.selected_or_eq with ⟨selected, plan, instrumented⟩ | ⟨not_selected, rfl⟩
    · rw [if_pos selected] at writable ⊢
      have writable : image.sink.IsReliable := by simpa [entries] using writable
      obtain rfl := extra_eq selected
      obtain ⟨later, entered, leads, later_worlds, entered_frames, narrates⟩ :=
        leads_entry (.ofMethod method') others instrumented worlds frames writable
      have matched : State.Matches pipeline images
          ⟨method.maxLocals.toNat, 4, some image.clock.now⟩ margins
          ⟨world, ⟨.ofMethod method, frame, 0⟩, callers⟩
          ⟨later, ⟨.ofMethod method', entered, 5⟩, others⟩ := by
        refine ⟨later_worlds, ⟨weaves, entered_frames, rfl, ?_⟩, waiting⟩
        simp [Body.ofMethod, selected]
      refine Or.inr ⟨5, _, _, leads, .running matched ?_, narrates _⟩
      rw [Pipeline.destination]
      exact (offset_zero _).symm.trans (if_pos selected).symm
    · rw [not_selected, if_neg Bool.false_ne_true]
      have matched : State.Matches pipeline images ⟨method'.maxLocals.toNat, extra, none⟩ margins
          ⟨world, ⟨.ofMethod method', frame, 0⟩, callers⟩
          ⟨image, ⟨.ofMethod method', frame', 0⟩, others⟩ := by
        refine ⟨worlds, ⟨weaves, frames, rfl, ?_⟩, waiting⟩
        simp only [Body.ofMethod, not_selected, if_neg Bool.false_ne_true]
      refine Or.inr ⟨0, _, _, .refl _, .running matched ?_, .refl image _⟩
      rw [Pipeline.destination]
      exact (if_neg (by simp [not_selected])).symm
  · simp only [laid]
    exact Or.inl ⟨_, _, rfl, Frame.isLimit_of_layOut laid⟩

/-- A value is returned as in the original run. -/
theorem keepsUp_resume (worlds : world.Matches images image)
    (waiting : Waiting pipeline images margins callers others) {value value' : Option Value}
    (values : Option.Rel (Value.Matches images) value value') :
    KeepsUp pipeline woven last [] 0 (starts margins) (resume world value callers)
      (resume image value' others) := by
  cases waiting with
  | nil =>
      refine keepsUp_ended worlds ?_ 0
      cases values with
      | none => exact .nothing
      | some values => exact .value (worlds.same_of_matches values)
  | @cons margin margins caller other callers others matched index_eq waiting =>
      cases values with
      | none =>
          exact Or.inr ⟨0, _, _, .refl _, .running ⟨worlds, ⟨matched.weaves, matched.frame,
            matched.slots, matched.began⟩, waiting⟩ index_eq, .refl image _⟩
      | some values =>
          simp only [resume]
          rcases (Frame.push_follows matched.frame values).outcomes with
            ⟨frame, frame', pushed, pushed', frames⟩ | ⟨fault, pushed, -⟩
          · rw [pushed, pushed']
            exact Or.inr ⟨0, _, _, .refl _, .running ⟨worlds, ⟨matched.weaves, frames,
              matched.slots, matched.began⟩, waiting⟩ index_eq, .refl image _⟩
          · rw [pushed]
            exact Or.inl ⟨_, _, rfl, Frame.isLimit_of_push pushed⟩

/-! ## Single steps -/

variable {margin : Margin} {state other : State} {instruction : Instruction}

/-- The woven run comes to the instruction that the original one executes next. -/
theorem leads_place (matched : state.Matches pipeline images margin margins other)
    (index_eq : other.current.index =
      pipeline.destination state.current.body.method state.current.index)
    (found : state.current.instruction? = some instruction)
    (writable : other.world.sink.IsReliable ∨ starts (margin :: margins) = []) :
    ∃ count later, Leads woven count (.running other) (.running later) ∧
      state.Matches pipeline images margin margins later ∧
      later.current.index = pipeline.place state.current.body.method state.current.index ∧
      Narrates (pipeline.departure state.current.body.method instruction) count 0 other.world
        (starts (margin :: margins)) later.world
        (if instruction.isReturn then starts margins else starts (margin :: margins)) := by
  obtain ⟨world, ⟨body, frame, index⟩, callers⟩ := state
  obtain ⟨image, ⟨body', frame', index'⟩, others⟩ := other
  obtain ⟨worlds, ⟨weaves, frames, slots_eq, began⟩, waiting⟩ := matched
  simp only [Activation.instruction?, body.instruction?_eq] at found index_eq slots_eq began ⊢
  subst index_eq
  rcases weaves.selected_or_eq with ⟨selected, plan, instrumented⟩ | ⟨not_selected, same⟩
  · simp only [selected, if_true] at began
    obtain ⟨slots, extra, began_at⟩ := margin
    obtain ⟨rfl, some_began⟩ := began
    obtain ⟨began_at, rfl⟩ := Option.isSome_iff_exists.mp some_began
    obtain rfl : slots = body.method.maxLocals.toNat := slots_eq
    have writable : image.sink.IsReliable := by simpa [starts] using writable
    by_cases returns : instruction.isReturn
    · obtain ⟨later, left, leads, later_worlds, left_frames, narrates⟩ :=
        leads_exit body' others instrumented worlds frames writable found returns
      refine ⟨16, ⟨later, ⟨body', left, position body.method.instructions index⟩, others⟩, ?_,
        ⟨later_worlds, ⟨weaves, left_frames, rfl, ?_⟩, waiting⟩, ?_, ?_⟩
      · rw [Pipeline.destination, if_pos selected]
        exact leads
      · simp [selected]
      · rw [Pipeline.place, if_pos selected]
      · rw [if_pos returns, Pipeline.departure, returns, selected, Bool.and_self, if_pos rfl]
        exact narrates (starts margins)
    · refine ⟨0, _, .refl _, ⟨worlds, ⟨weaves, frames, rfl, ?_⟩, waiting⟩, ?_, ?_⟩
      · simp [selected]
      · rw [Pipeline.destination, Pipeline.place, if_pos selected, if_pos selected,
          position_eq found, if_neg returns, Nat.add_zero]
      · simp only [Pipeline.departure, returns]
        exact .refl image _
  · simp only [not_selected, if_neg Bool.false_ne_true] at began
    have same_times : starts (margin :: margins) = starts margins := by
      simp [starts, began]
    refine ⟨0, _, .refl _, ⟨worlds, ⟨weaves, frames, slots_eq, ?_⟩, waiting⟩, ?_, ?_⟩
    · simp [not_selected, began]
    · simp [Pipeline.destination, Pipeline.place, not_selected]
    · simp only [Pipeline.departure, not_selected, Bool.and_false, if_neg Bool.false_ne_true,
        same_times, ite_self]
      exact .refl image _

/-- Nothing begins with a return. -/
theorem beginning_resume (pipeline : Pipeline) (world : World) (value : Option Value)
    (callers : List Activation) :
    pipeline.beginning (callers.length + 1) (resume world value callers) = [] := by
  cases callers with
  | nil => rfl
  | cons caller callers =>
      have shallow : callers.length < (caller :: callers).length + 1 := by
        rw [List.length_cons]
        omega
      cases value with
      | none => exact pipeline.beginning_of_lt shallow
      | some value =>
          simp only [resume]
          split
          · rfl
          · exact pipeline.beginning_of_lt shallow

/-- The woven run is led by an instruction to where the original run is. -/
theorem keepsUp_transfer (setups : setup.Matches pipeline woven) {body body' : Body}
    {frame frame' : Frame} {index : Nat}
    (weaves : Pipeline.Weaves pipeline.passes body.method body'.method)
    (slots : margin.slots = body.method.maxLocals.toNat)
    (began : if pipeline.selects body.method.declaration then
        margin.extra = 4 ∧ margin.began.isSome
      else margin.began = none)
    (waiting : Waiting pipeline images margins callers others)
    (found : body.method.instructions[index]? = some instruction) {after after' : World}
    {outcome outcome' : Except Trap Transfer}
    (performed : perform setup.file world frame instruction = (after, outcome))
    (performed' : perform woven.file image frame' instruction = (after', outcome'))
    (worlds : after.Matches images after')
    (mirrors : Mirrors margin.SparesTrap
      (Transfer.Matches (Pipeline.Weaves pipeline.passes) margin images) outcome outcome')
    (writable : after'.sink.IsReliable ∨
      entries (pipeline.beginning (callers.length + 1)
        (step setup ⟨world, ⟨body, frame, index⟩, callers⟩)) = 0) :
    KeepsUp pipeline woven (some ⟨world, ⟨body, frame, index⟩, callers⟩)
      (pipeline.beginning (callers.length + 1)
        (step setup ⟨world, ⟨body, frame, index⟩, callers⟩)) 0
      (if instruction.isReturn then starts margins else starts (margin :: margins))
      (step setup ⟨world, ⟨body, frame, index⟩, callers⟩)
      (step woven ⟨image, ⟨body', frame', pipeline.place body.method index⟩, others⟩) := by
  have suits : ∀ transfer, outcome = .ok transfer → transfer.Suits setup.file instruction :=
    fun transfer answered => suits_perform (by rw [performed]; exact answered)
  simp only [step, body.instruction?_eq, body'.instruction?_eq, found, getElem?_place weaves found,
    performed, performed', failureAt_weaves weaves] at writable ⊢
  cases mirrors with
  | ok transfers =>
      have suits := suits _ rfl
      cases transfers with
      | next frames =>
          have stays := suits.not_isReturn (by simp)
          exact keepsUp_running (Nat.lt_succ_self _) (by simp [stays])
            ⟨worlds, ⟨weaves, frames, slots, began⟩, waiting⟩
            (pipeline.destination_succ body.method index).symm
      | jump target frames =>
          have stays := suits.not_isReturn (by simp)
          simp only [place?_destination weaves]
          cases body.place? target with
          | none => exact keepsUp_ended worlds (.fault _ rfl) _
          | some place =>
              exact keepsUp_running (Nat.lt_succ_self _) (by simp [stays])
                ⟨worlds, ⟨weaves, frames, slots, began⟩, waiting⟩ rfl
      | call frames callee related =>
          obtain ⟨method, rfl, -⟩ := suits
          exact keepsUp_activate setups callee worlds
            (.cons ⟨weaves, frames, slots, began⟩
              (pipeline.destination_succ body.method index).symm waiting) related writable
      | leave values =>
          have returns : instruction.isReturn := suits
          rw [beginning_resume, if_pos returns]
          exact keepsUp_resume worlds waiting values
  | error trap =>
      cases trap with
      | fault fault => exact keepsUp_ended worlds (.fault _ rfl) _
      | output reason => exact keepsUp_ended worlds (.error (by simp)) _
  | excuse limit =>
      rename_i trap
      cases trap with
      | fault fault => exact Or.inl ⟨_, _, rfl, limit.1⟩
      | output reason => exact limit.elim

/-- An instruction leads the woven run where it leads the original one. -/
theorem keepsUp_land (setups : setup.Matches pipeline woven)
    (matched : state.Matches pipeline images margin margins other)
    (index_eq : other.current.index =
      pipeline.place state.current.body.method state.current.index)
    (found : state.current.instruction? = some instruction)
    (timeless : instruction.readsClock = false)
    (readable : rendersPlain state.world state.current.frame instruction = false)
    (writable : other.world.sink.IsReliable ∨
      entries (pipeline.beginning (state.callers.length + 1) (step setup state)) = 0) :
    KeepsUp pipeline woven (some state)
      (((step setup state).world.printed.toList.drop state.world.printed.size).map .said ++
        pipeline.beginning (state.callers.length + 1) (step setup state)) 1
      (if instruction.isReturn then starts margins else starts (margin :: margins))
      (step setup state) (.running other) := by
  obtain ⟨world, ⟨body, frame, index⟩, callers⟩ := state
  obtain ⟨image, ⟨body', frame', index'⟩, others⟩ := other
  obtain ⟨worlds, ⟨weaves, frames, slots_eq, began⟩, waiting⟩ := matched
  have stepped := world_step setup ⟨world, ⟨body, frame, index⟩, callers⟩
  have stepped' := world_step woven ⟨image, ⟨body', frame', index'⟩, others⟩
  simp only [Activation.instruction?, body.instruction?_eq, body'.instruction?_eq] at *
  subst index_eq
  simp only [found, getElem?_place weaves found] at stepped stepped'
  have echoes : Echoes margin images world image
      (Transfer.Matches (Pipeline.Weaves pipeline.passes) margin)
      (perform setup.file world frame instruction) (perform woven.file image frame' instruction) :=
    perform_echoes setups.names (callee?_related setups) worlds frames timeless readable
  have same_sink := (perform_turns woven.file image frame' instruction).failure?_eq
  cases performed : perform setup.file world frame instruction with
  | mk after outcome =>
  cases performed' : perform woven.file image frame' instruction with
  | mk after' outcome' =>
  rw [performed, performed'] at echoes
  rw [performed] at stepped
  rw [performed'] at stepped' same_sink
  rcases echoes with ⟨trap, failed, limit⟩ | ⟨more, moves, mirrors⟩
  · obtain rfl : outcome = .error trap := failed
    cases trap with
    | fault fault =>
        refine Or.inl ⟨after, failureAt body.method index fault, ?_, limit.1⟩
        simp [step, body.instruction?_eq, found, performed]
    | output reason => exact limit.elim
  · obtain ⟨lines, printed_eq, printed_eq'⟩ := moves.lines
    have clock_eq := moves.clock
    have lines_eq : (step setup ⟨world, ⟨body, frame, index⟩, callers⟩).world.printed.toList.drop
        world.printed.size = lines := by
      rw [stepped, printed_eq, ← Array.length_toList, List.drop_left]
    rw [lines_eq]
    have narrates : ∀ times, Narrates (lines.map .said) 1 1 image times after' times := by
      refine fun times => ⟨fun rest => ?_, ?_⟩
      · rw [outlook, outlook, spell_said, printed_eq', List.append_assoc, clock_eq]
      · rw [entries_said]
        omega
    rw [Sink.IsReliable, ← same_sink, ← Sink.IsReliable] at writable
    have lands := keepsUp_transfer setups weaves slots_eq began
      (waiting.mono moves.grows) found performed performed' moves.matched mirrors writable
    refine KeepsUp.after (leads_step woven _) ?_ lands
    rw [stepped']
    exact narrates _

/-- The woven run keeps up with a step of the original run that depends neither on the clock nor on
the places of objects. -/
theorem keepsUp_step (setups : setup.Matches pipeline woven)
    (matched : state.Matches pipeline images margin margins other)
    (index_eq : other.current.index =
      pipeline.destination state.current.body.method state.current.index)
    (oblivious : state.isOblivious)
    (writable : other.world.sink.IsReliable ∨
      starts (margin :: margins) = [] ∧ entries (pipeline.remarks setup state) = 0) :
    KeepsUp pipeline woven (some state) (pipeline.remarks setup state) 1
      (starts (margin :: margins)) (step setup state) (.running other) := by
  cases found : state.current.instruction? with
  | none =>
      obtain ⟨world, ⟨body, frame, index⟩, callers⟩ := state
      obtain ⟨image, ⟨body', frame', index'⟩, others⟩ := other
      obtain ⟨worlds, ⟨weaves, -, -, -⟩, -⟩ := matched
      simp only [Activation.instruction?, body.instruction?_eq] at found index_eq
      subst index_eq
      obtain ⟨found', place_eq⟩ := getElem?_destination_eq_none weaves found
      have ended : step setup ⟨world, ⟨body, frame, index⟩, callers⟩ =
          .ended world (.error (failureAt body.method index .fellOffEnd)) := by
        simp [step, body.instruction?_eq, found]
      have ended' : step woven
          ⟨image, ⟨body', frame', pipeline.destination body.method index⟩, others⟩ =
          .ended image (.error (failureAt body.method (pipeline.place body.method index)
            .fellOffEnd)) := by
        simp [step, body'.instruction?_eq, found', failureAt_weaves weaves, place_eq]
      have silent : pipeline.remarks setup ⟨world, ⟨body, frame, index⟩, callers⟩ = [] := by
        simp [Pipeline.remarks, ended, Activation.instruction?, body.instruction?_eq, found,
          Progress.world, Pipeline.beginning]
      have leads := leads_step woven
        ⟨image, ⟨body', frame', pipeline.destination body.method index⟩, others⟩
      rw [ended'] at leads
      rw [ended, silent]
      exact Or.inr ⟨1, _, _, leads, .ended worlds (.fault .fellOffEnd rfl),
        ⟨fun _ => rfl, by simp [entries]⟩⟩
  | some instruction =>
      simp only [State.isOblivious, found, Bool.and_eq_true, Bool.not_eq_true'] at oblivious
      obtain ⟨timeless, readable⟩ := oblivious
      obtain ⟨count, later, leads, later_matched, later_index, narrates⟩ :=
        leads_place matched index_eq found (writable.imp_right And.left)
      have remarks_eq : pipeline.remarks setup state =
          pipeline.departure state.current.body.method instruction ++
            (((step setup state).world.printed.toList.drop state.world.printed.size).map .said ++
              pipeline.beginning (state.callers.length + 1) (step setup state)) := by
        rw [Pipeline.remarks, found, List.append_assoc]
        rfl
      have same_sinks : later.world.sink.IsReliable ↔ other.world.sink.IsReliable :=
        later_matched.world.sink.isReliable_iff.trans matched.world.sink.isReliable_iff.symm
      have later_writable : later.world.sink.IsReliable ∨
          entries (pipeline.beginning (state.callers.length + 1) (step setup state)) = 0 := by
        rw [same_sinks]
        apply writable.imp_right
        rintro ⟨-, none_begins⟩
        rw [remarks_eq, entries_append, entries_append] at none_begins
        omega
      rw [remarks_eq]
      exact .after leads narrates
        (keepsUp_land setups later_matched later_index found timeless readable later_writable)

end Steps

end Machine
end MethodTracing
