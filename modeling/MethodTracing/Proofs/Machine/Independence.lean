import MethodTracing.Proofs.Machine.Mirroring
import MethodTracing.Proofs.Machine.Sessions

/-!
# Calls of one session

Earlier calls leave objects, shared constants, a console, lines and the time of the clock behind, and
the sink in the state that their lines brought it to.  A later call makes its objects in other places
than the same call of a fresh session, and finds shared objects that the other one makes.  Otherwise
the two runs do the same, instruction by instruction, as long as their sinks do.

Main statement: a call that neither reads the clock nor shows the place of an object ends and prints
as it does in a fresh session with the same limits, whatever was called before, if the sink there is
in the same state or neither sink ever fails.
-/

namespace MethodTracing
namespace Machine

/-! ## Instructions that show no place -/

section Oblivious

variable {margin : Margin} {images : List ObjectId} {world image : World} {frame frame' : Frame}

theorem showsPlace_eq (worlds : world.Matches images image) {receiver receiver' : ObjectId}
    (found : images[receiver.index]? = some receiver') {arguments arguments' : List Value}
    (related : List.Forall₂ (Value.Matches images) arguments arguments') (method : MethodRef) :
    showsPlace image receiver' arguments' method = showsPlace world receiver arguments method := by
  rcases related with _ | ⟨values, _ | _⟩
  · rfl
  · simp only [showsPlace, worlds.isPlain_eq values, worlds.objects found]
  · rfl

theorem rendersPlain_eq (worlds : world.Matches images image)
    (frames : frame.Matches images margin frame') (same_room : margin.extra = 0)
    (instruction : Instruction) :
    rendersPlain image frame' instruction = rendersPlain world frame instruction := by
  have strict : ∀ fault, ¬margin.Spares fault := fun fault spared => by
    have := spared.2
    omega
  unfold rendersPlain
  split
  · rename_i method
    rcases (Frame.popArguments_follows frames method.type.parameters).outcomes_of_strict strict with
      ⟨_, _, popped, popped', related, rests⟩ | ⟨fault, popped, popped'⟩
    · simp only [popped, popped']
      rcases (Frame.popReference_follows rests).outcomes_of_strict strict with
        ⟨_, _, taken, taken', found, -⟩ | ⟨fault, taken, taken'⟩
      · simp only [taken, taken']
        exact showsPlace_eq worlds found related method
      · simp only [taken, taken']
    · simp only [popped, popped']
  · rfl

end Oblivious

/-! ## Runs that differ in the places of objects -/

/-- What a frame of a body has beyond another frame of the same body: nothing. -/
def Body.margin (body : Body) : Margin :=
  ⟨body.method.maxLocals.toNat, 0, none⟩

theorem Body.not_spares (body : Body) (trap : Trap) : ¬body.margin.SparesTrap trap := by
  cases trap with
  | fault cause => exact fun spared => Nat.lt_irrefl 0 spared.2
  | output reason => exact id

/-- A world agrees with another one in which some lines were printed before. -/
structure World.Resembles (earlier : List String) (images : List ObjectId) (world image : World) :
    Prop where
  objects : world.Matches images image
  printed : image.printed.toList = earlier ++ world.printed.toList

/-- Activations of one body at one instruction. -/
structure Activation.Resembles (images : List ObjectId) (activation image : Activation) : Prop where
  body : activation.body = image.body
  index : activation.index = image.index
  frame : activation.frame.Matches images activation.body.margin image.frame

/-- Runs at one instruction, with the same activations waiting. -/
structure State.Resembles (earlier : List String) (images : List ObjectId) (state image : State) :
    Prop where
  world : state.world.Resembles earlier images image.world
  current : state.current.Resembles images image.current
  callers : List.Forall₂ (Activation.Resembles images) state.callers image.callers

/-- Equal outcomes, except that an object may be found in another place. -/
inductive SameOutcome (world image : World) :
    Except CallError (Option Value) → Except CallError (Option Value) → Prop
  | nothing : SameOutcome world image (.ok none) (.ok none)
  | value {value value' : Value} : value.Same world image value' →
      SameOutcome world image (.ok (some value)) (.ok (some value'))
  | failure (error : CallError) : SameOutcome world image (.error error) (.error error)

/-- Runs that have got to the same point. -/
inductive Progress.Resembles (earlier : List String) : Progress → Progress → Prop
  | running {images : List ObjectId} {state image : State} :
      state.Resembles earlier images image → Resembles earlier (.running state) (.running image)
  | ended {images : List ObjectId} {world image : World}
      {outcome outcome' : Except CallError (Option Value)} :
      world.Resembles earlier images image → SameOutcome world image outcome outcome' →
        Resembles earlier (.ended world outcome) (.ended image outcome')

section Runs

variable {earlier : List String} {images more : List ObjectId} {world image : World}

theorem World.Resembles.moves {after later : World} (worlds : world.Resembles earlier images image)
    (moves : World.Moves images more world after image later) :
    after.Resembles earlier more later := by
  obtain ⟨lines, printed_eq, printed_eq'⟩ := moves.lines
  refine ⟨moves.matched, ?_⟩
  rw [printed_eq, printed_eq', worlds.printed, List.append_assoc]

theorem Activation.Resembles.mono {activation other : Activation} (grows : images <+: more)
    (resembles : activation.Resembles images other) : activation.Resembles more other :=
  { resembles with frame := resembles.frame.mono grows }

theorem Activation.Resembles.instruction?_eq {activation other : Activation}
    (resembles : activation.Resembles images other) :
    other.instruction? = activation.instruction? := by
  rw [instruction?, ← resembles.body, ← resembles.index]
  rfl

theorem forall₂_resembles_mono {callers others : List Activation} (grows : images <+: more)
    (resemble : List.Forall₂ (Activation.Resembles images) callers others) :
    List.Forall₂ (Activation.Resembles more) callers others :=
  resemble.imp fun _ _ resembles => resembles.mono grows

/-- Of two states that resemble one another, either both show nothing or neither. -/
theorem State.Resembles.isOblivious_eq {state other : State}
    (resembles : state.Resembles earlier images other) : other.isOblivious = state.isOblivious := by
  simp only [State.isOblivious, resembles.current.instruction?_eq]
  cases state.current.instruction? with
  | none => rfl
  | some instruction =>
      simp only [rendersPlain_eq resembles.world.objects resembles.current.frame rfl instruction]

/-- Between frames of one body nothing is excused: an instruction that shows nothing leads to the
same place in both runs, or fails alike. -/
theorem perform_resembles (file : ClassFile) (body : Body) (worlds : world.Matches images image)
    {frame frame' : Frame} (frames : frame.Matches images body.margin frame')
    {instruction : Instruction} (timeless : instruction.readsClock = false)
    (readable : rendersPlain world frame instruction = false) :
    ∃ more, World.Moves images more world (perform file world frame instruction).1 image
        (perform file image frame' instruction).1 ∧
      ((∃ transfer transfer', (perform file world frame instruction).2 = .ok transfer ∧
          (perform file image frame' instruction).2 = .ok transfer' ∧
          transfer.Matches Eq body.margin more transfer') ∨
        ∃ trap, (perform file world frame instruction).2 = .error trap ∧
          (perform file image frame' instruction).2 = .error trap) := by
  have callees (method : MethodRef) :
      Option.Rel Eq (file.callee? method) (file.callee? method) := by
    cases file.callee? method with
    | none => exact .none
    | some callee => exact .some rfl
  rcases perform_echoes rfl callees worlds frames timeless readable with
    ⟨trap, -, spared⟩ | ⟨more, moves, mirrors⟩
  · exact absurd spared (body.not_spares trap)
  · exact ⟨more, moves, mirrors.outcomes_of_strict body.not_spares⟩

/-- An activation begins in both runs. -/
theorem activate_resembles (setup : Setup) (worlds : world.Resembles earlier images image)
    {callers others : List Activation}
    (callers_resemble : List.Forall₂ (Activation.Resembles images) callers others) (method : Method)
    {arguments arguments' : List Value}
    (related : List.Forall₂ (Value.Matches images) arguments arguments') :
    (activate setup world callers method arguments).Resembles earlier
      (activate setup image others method arguments') := by
  simp only [activate, ← related.length_eq, ← callers_resemble.length_eq]
  split
  · exact .ended worlds (.failure _)
  · split
    · exact .ended worlds (.failure _)
    · have empty := Frame.matches_empty images method.maxLocals.toNat
        (Nat.add_zero method.maxStack.toNat).symm
      rw [Nat.add_zero] at empty
      rcases (Frame.layOut_follows empty 0 related).outcomes_of_strict
        (fun _ spared => Nat.lt_irrefl 0 spared.2) with
        ⟨_, _, laid, laid', frames⟩ | ⟨fault, laid, laid'⟩
      · rw [laid, laid']
        exact .running ⟨worlds, ⟨rfl, rfl, frames⟩, callers_resemble⟩
      · rw [laid, laid']
        exact .ended worlds (.failure _)

/-- A value is returned in both runs. -/
theorem resume_resembles (worlds : world.Resembles earlier images image)
    {callers others : List Activation}
    (callers_resemble : List.Forall₂ (Activation.Resembles images) callers others)
    {value value' : Option Value} (values : Option.Rel (Value.Matches images) value value') :
    (resume world value callers).Resembles earlier (resume image value' others) := by
  cases callers_resemble with
  | nil =>
      cases values with
      | none => exact .ended worlds .nothing
      | some values => exact .ended worlds (.value (worlds.objects.same_of_matches values))
  | @cons caller other callers others caller_resembles rest =>
      obtain ⟨body, frame, index⟩ := caller
      obtain ⟨_, frame', _⟩ := other
      obtain ⟨rfl, rfl, frames⟩ := caller_resembles
      cases values with
      | none => exact .running ⟨worlds, ⟨rfl, rfl, frames⟩, rest⟩
      | some values =>
          rcases (Frame.push_follows frames values).outcomes_of_strict
            (fun cause => body.not_spares (.fault cause)) with
            ⟨_, _, pushed, pushed', frames⟩ | ⟨fault, pushed, pushed'⟩
          · simp only [resume, pushed, pushed']
            exact .running ⟨worlds, ⟨rfl, rfl, frames⟩, rest⟩
          · simp only [resume, pushed, pushed']
            exact .ended worlds (.failure _)

/-- What both runs come to by one instruction: their worlds agree, and control goes to the same place
or the instruction fails alike. -/
def PerformsAlike (margin : Margin) (earlier : List String) (images : List ObjectId)
    (result result' : World × Except Trap Transfer) : Prop :=
  ∃ more, images <+: more ∧ result.1.Resembles earlier more result'.1 ∧
    ((∃ transfer transfer', result.2 = .ok transfer ∧ result'.2 = .ok transfer' ∧
        transfer.Matches Eq margin more transfer') ∨
      ∃ trap, result.2 = .error trap ∧ result'.2 = .error trap)

/-- A step leads both runs to the same point if its instruction does. -/
theorem step_resembles_of_performsAlike (setup : Setup) {state other : State}
    (resembles : state.Resembles earlier images other)
    (alike : ∀ instruction, state.current.instruction? = some instruction →
      PerformsAlike state.current.body.margin earlier images
        (perform setup.file state.world state.current.frame instruction)
        (perform setup.file other.world other.current.frame instruction)) :
    (step setup state).Resembles earlier (step setup other) := by
  obtain ⟨world, ⟨body, frame, index⟩, callers⟩ := state
  obtain ⟨image, ⟨_, frame', _⟩, others⟩ := other
  obtain ⟨worlds, ⟨rfl, rfl, frames⟩, callers_resemble⟩ := resembles
  simp only [Activation.instruction?] at worlds frames callers_resemble alike
  simp only [step]
  cases found : body.instruction? index with
  | none => exact .ended worlds (.failure _)
  | some instruction =>
      obtain ⟨more, grows, worlds, outcomes⟩ := alike instruction found
      have callers_resemble := forall₂_resembles_mono grows callers_resemble
      simp only
      generalize perform setup.file world frame instruction = performed at worlds outcomes ⊢
      generalize perform setup.file image frame' instruction = performed' at worlds outcomes ⊢
      obtain ⟨after, outcome⟩ := performed
      obtain ⟨later, outcome'⟩ := performed'
      rcases outcomes with ⟨transfer, transfer', rfl, rfl, transfers⟩ | ⟨trap, rfl, rfl⟩
      · cases transfers with
        | next frames => exact .running ⟨worlds, ⟨rfl, rfl, frames⟩, callers_resemble⟩
        | jump target frames =>
            simp only
            split
            · exact .ended worlds (.failure _)
            · exact .running ⟨worlds, ⟨rfl, rfl, frames⟩, callers_resemble⟩
        | @call frame frame' callee _ _ _ frames callee_eq related =>
            obtain rfl := callee_eq
            have current : Activation.Resembles more ⟨body, frame, index⟩ ⟨body, frame', index⟩ :=
              ⟨rfl, rfl, frames⟩
            exact activate_resembles setup worlds (.cons current callers_resemble) callee related
        | leave values => exact resume_resembles worlds callers_resemble values
      · cases trap with
        | fault fault => exact .ended worlds (.failure _)
        | output reason => exact .ended worlds (.failure _)

/-- A step that shows nothing leads both runs to the same point. -/
theorem step_resembles (setup : Setup) {state other : State}
    (resembles : state.Resembles earlier images other) (oblivious : state.isOblivious) :
    (step setup state).Resembles earlier (step setup other) := by
  refine step_resembles_of_performsAlike setup resembles fun instruction found => ?_
  simp only [State.isOblivious, found, Bool.and_eq_true, Bool.not_eq_true'] at oblivious
  obtain ⟨more, moves, outcomes⟩ := perform_resembles setup.file state.current.body
    resembles.world.objects resembles.current.frame oblivious.1 oblivious.2
  exact ⟨more, moves.grows, resembles.world.moves moves, outcomes⟩

/-- A run out of budget fails alike in both. -/
theorem exhausted_eq {state other : State} (resembles : state.Resembles earlier images other) :
    exhausted other = exhausted state := by
  have current := resembles.current
  simp only [exhausted, current.instruction?_eq, ← current.body, ← current.index]

/-- Runs that show nothing lead to the same end.  Of the states of a run, those before the budget is
used up execute an instruction. -/
theorem run_resembles (setup : Setup) (fuel : Nat) {progress other : Progress}
    (resembles : progress.Resembles earlier other)
    (oblivious : ∀ state ∈ (states setup fuel other).take fuel, state.isOblivious) :
    ∃ images, (run setup fuel progress).1.Resembles earlier images (run setup fuel other).1 ∧
      SameOutcome (run setup fuel progress).1 (run setup fuel other).1
        (run setup fuel progress).2 (run setup fuel other).2 := by
  -- Both runs spend the budget instruction by instruction, so their states correspond one by one.
  induction fuel generalizing progress other with
  | zero =>
      cases resembles with
      | running resembles =>
          simp only [run, exhausted_eq resembles]
          exact ⟨_, resembles.world, .failure _⟩
      | ended worlds same => exact ⟨_, worlds, same⟩
  | succ fuel ih =>
      cases resembles with
      | running resembles =>
          rw [states, List.take_succ_cons, List.forall_mem_cons] at oblivious
          have quiet := resembles.isOblivious_eq ▸ oblivious.1
          exact ih (step_resembles setup resembles quiet) oblivious.2
      | ended worlds same => exact ⟨_, worlds, same⟩

end Runs

/-! ## Calls -/

theorem settle_same {world image : World} (sinks : world.sink.Agrees image.sink)
    {outcome outcome' : Except CallError (Option Value)}
    (same : SameOutcome world image outcome outcome') :
    SameOutcome (world.ask .flush) (image.ask .flush) (Session.settle world outcome)
      (Session.settle image outcome') := by
  simp only [Session.settle, sinks.refusal?_eq]
  split
  · exact .failure _
  · cases same with
    | nothing => exact .nothing
    | value same => exact .value (same.ask .flush)
    | failure error => exact .failure error

namespace Session

variable {session : Session} {name : String} {arguments : List Value}

/-- What a call of one session does, the same call of another one does. -/
structure ActsAlike (session other : Session) (name : String) (arguments : List Value) : Prop where
  /-- The outcomes are equal, except that an object may be found in another place. -/
  outcome : SameOutcome (session.invoke name arguments).1.world
    (other.invoke name arguments).1.world (session.invoke name arguments).2
    (other.invoke name arguments).2
  /-- Both calls print the same lines. -/
  printed : ∃ lines,
    (session.invoke name arguments).1.world.printed.toList = session.world.printed.toList ++ lines ∧
    (other.invoke name arguments).1.world.printed.toList = other.world.printed.toList ++ lines
  /-- The sinks do the same afterwards. -/
  sinks : (session.invoke name arguments).1.world.sink.Agrees
    (other.invoke name arguments).1.world.sink

/-- A call begins in both of two worlds that agree. -/
theorem begin_resembles_of_world {world : World} {earlier : List String} {images : List ObjectId}
    (worlds : world.Resembles earlier images session.world) (name : String)
    (no_reference : ∀ object, Value.reference object ∉ arguments) :
    (begin ⟨session.setup, session.fuel, world⟩ name arguments = none ∧
      session.begin name arguments = none) ∨
    ∃ progress other,
      begin ⟨session.setup, session.fuel, world⟩ name arguments = some progress ∧
      session.begin name arguments = some other ∧ progress.Resembles earlier other := by
  have related images := Value.forall₂_matches images no_reference
  simp only [begin]
  cases session.setup.file.method? name with
  | none => exact Or.inl ⟨rfl, rfl⟩
  | some method =>
      right
      by_cases static : method.declaration.access.isStatic
      · simp only [if_pos static]
        exact ⟨_, _, rfl, rfl,
          activate_resembles session.setup worlds .nil method (related images)⟩
      · simp only [if_neg static]
        have moves := worlds.objects.moves_allocate (.plain session.setup.file.name)
        exact ⟨_, _, rfl, rfl, activate_resembles session.setup (worlds.moves moves) .nil method
          (.cons (.reference (World.found_allocate worlds.objects _ _)) (related _))⟩

/-- A call begins as in a fresh session. -/
theorem begin_resembles (coherent : session.world.Coherent) (name : String)
    (no_reference : ∀ object, Value.reference object ∉ arguments) (clock : Clock) {sink : Sink}
    (sinks : sink.Agrees session.world.sink) :
    (begin ⟨session.setup, session.fuel, .initial clock sink⟩ name arguments = none ∧
      session.begin name arguments = none) ∨
    ∃ progress other,
      begin ⟨session.setup, session.fuel, .initial clock sink⟩ name arguments = some progress ∧
      session.begin name arguments = some other ∧
      progress.Resembles session.world.printed.toList other :=
  begin_resembles_of_world
    ⟨World.matches_initial clock coherent sinks, by simp [World.initial]⟩ name no_reference

/-- The calls before a call of a session influence it by what they leave of the sink only.  As long
as it neither reads the clock nor shows the place of an object, it acts as in a fresh session with
the same limits whose sink does the same from then on, whatever the time there.  The instructions
that a run executes are those of its states before the budget is used up. -/
theorem invoke_independent {file : ClassFile} (arises : session.Arises file)
    (no_reference : ∀ object, Value.reference object ∉ arguments)
    (oblivious : ∀ state ∈ (session.visited name arguments).take session.fuel, state.isOblivious)
    (clock : Clock) {sink : Sink} (sinks : sink.Agrees session.world.sink) :
    ActsAlike (fresh file session.setup.callDepth session.fuel clock sink) session name
      arguments := by
  obtain rfl := arises.file_eq
  rcases begin_resembles arises.coherent name no_reference clock sinks with
    ⟨first_begun, begun⟩ | ⟨progress, other, first_begun, begun, resembles⟩
  · refine ⟨?_, ⟨[], ?_, ?_⟩, ?_⟩
    · rw [fresh, invoke_of_unknown first_begun, invoke_of_unknown begun]
      exact .failure _
    · rw [fresh, invoke_of_unknown first_begun, List.append_nil]
    · rw [invoke_of_unknown begun, List.append_nil]
    · rw [fresh, invoke_of_unknown first_begun, invoke_of_unknown begun]
      exact sinks
  · rw [visited, begun] at oblivious
    obtain ⟨images, worlds, same⟩ := run_resembles session.setup session.fuel resembles oblivious
    refine ⟨?_, ⟨_, (List.nil_append _).symm, ?_⟩, ?_⟩
    · rw [fresh, invoke_of_begin first_begun, invoke_of_begin begun]
      exact settle_same worlds.objects.sink same
    · rw [fresh, invoke_of_begin first_begun, invoke_of_begin begun]
      exact worlds.printed
    · rw [fresh, invoke_of_begin first_begun, invoke_of_begin begun]
      exact worlds.objects.sink.after .flush

/-- A method that prints a line and calls itself, and one that prints the same line and builds a
text. -/
def notingFile : ClassFile :=
  { name := "Noting"
    methods :=
      [{ declaration :=
          { owner := "Noting", name := "dive", type := some ⟨[.int], none⟩, access := ⟨0x0008⟩
            kind := .function, annotations := .empty }
         instructions :=
          [.getStatic Trace.console, .ldc "noted", .invoke .virtual Trace.println, .load .int 0,
            .invoke .direct ⟨"Noting", "dive", ⟨[.int], none⟩⟩, .ret none]
         maxStack := 2
         maxLocals := 1 },
        { declaration :=
          { owner := "Noting", name := "note"
            type := some ⟨[.int], some (.object Trace.stringClass)⟩
            access := ⟨0x0001⟩, kind := .function, annotations := .empty }
          instructions :=
          [.getStatic Trace.console, .ldc "noted", .invoke .virtual Trace.println,
            .new Trace.stringBuilderClass, .dup, .invoke .special Trace.builderInit, .load .int 1,
            .invoke .virtual (Trace.builderAppend .int), .invoke .virtual Trace.builderText,
            .ret (some .reference)]
          maxStack := 2
          maxLocals := 2 }] }

/-- A session that was used for a call that was cut off below itself. -/
def usedSession : Session :=
  ((fresh notingFile 3 40 (.steady 0 0) .reliable).invoke "dive" [.int 4]).1

theorem invoke_independent_usedSession :
    ((fresh notingFile 3 40 (.steady 0 0) .reliable).invoke "dive" [.int 4]).2 =
      .error (.callDepthExceeded 3) ∧
    usedSession.Arises notingFile ∧ (∀ object, Value.reference object ∉ [.int 7]) ∧
    (∀ state ∈ (usedSession.visited "note" [.int 7]).take usedSession.fuel, state.isOblivious) ∧
    Sink.reliable.Agrees usedSession.world.sink ∧
    (usedSession.invoke "note" [.int 7]).1.world.printed = #["noted", "noted", "noted", "noted"] ∧
    ActsAlike
      (fresh notingFile usedSession.setup.callDepth usedSession.fuel (.steady 0 0) .reliable)
      usedSession "note" [.int 7] :=
  have arises : usedSession.Arises notingFile := .invoke _ _ (.start 3 40 (.steady 0 0) .reliable)
  have oblivious : ∀ state ∈ (usedSession.visited "note" [.int 7]).take usedSession.fuel,
      state.isOblivious := by decide +kernel
  have sinks : Sink.reliable.Agrees usedSession.world.sink := Or.inr ⟨rfl, rfl⟩
  ⟨by decide +kernel, arises, by simp, oblivious, sinks, by decide +kernel,
    invoke_independent arises (by simp) oblivious (.steady 0 0) sinks⟩

/-- A sink that takes no more lines once it has handed some over. -/
def shortSink : Sink where
  failure?
    | .flush :: _, .line _ => some "sink is full"
    | _, _ => none
  asked := []

/-- A session whose first call filled the sink. -/
def fullSession : Session :=
  ((fresh notingFile 3 40 (.steady 0 0) shortSink).invoke "note" [.int 7]).1

/-- A call fails that would not fail in a session whose sink is as it was before the first call. -/
theorem not_independent_fullSession :
    fullSession.Arises notingFile ∧
    (∀ state ∈ (fullSession.visited "note" [.int 7]).take fullSession.fuel, state.isOblivious) ∧
    (fullSession.invoke "note" [.int 7]).2 = .error (.output "sink is full") ∧
    (∃ value, ((fresh notingFile 3 40 (.steady 0 0) shortSink).invoke "note" [.int 7]).2 =
      .ok (some value)) ∧
    ¬ActsAlike (fresh notingFile 3 40 (.steady 0 0) shortSink) fullSession "note" [.int 7] := by
  have refused : (fullSession.invoke "note" [.int 7]).2 = .error (.output "sink is full") := by
    decide +kernel
  have answered : ((fresh notingFile 3 40 (.steady 0 0) shortSink).invoke "note" [.int 7]).2 =
      .ok (some (.reference ⟨4⟩)) := by
    decide +kernel
  refine ⟨.invoke _ _ (.start 3 40 (.steady 0 0) shortSink), by decide +kernel, refused,
    ⟨_, answered⟩, fun alike => ?_⟩
  have same := alike.outcome
  rw [refused, answered] at same
  cases same

end Session
end Machine
end MethodTracing
