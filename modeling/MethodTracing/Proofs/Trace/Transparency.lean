import MethodTracing.Proofs.Trace.Lockstep

/-!
# Weaving is transparent

A call of the woven class has the outcome of the same call of the original class, given the budget
for the injected sequences, and prints what the original call prints, with a line where a selected
method begins and a line with the elapsed time where it returns.
-/

namespace MethodTracing
namespace Machine

open Trace

section Runs

variable {pipeline : Pipeline} {setup woven : Setup}

/-- The woven run ends as the original one does, and what it has printed by then tells a story from
a point on. -/
def EndsAlike (pipeline : Pipeline) (last : Option State) (times : List Int64) (story : List Remark)
    (point : World) (original image : World × Except CallError (Option Value)) : Prop :=
  ∃ images, original.1.Matches images image.1 ∧
    Agrees pipeline last original.1 image.1 original.2 image.2 ∧
    image.1.printed.toList = outlook point times story

/-- A woven run that has kept up ends as the original one does, if it does so from every point at
which the two agree. -/
theorem KeepsUp.endsAlike {last final : Option State} {remarks story : List Remark}
    {budget fuel fuel' : Nat} {times : List Int64} {progress other : Progress} {writable : Prop}
    (keeps_up : KeepsUp pipeline woven last remarks budget times progress other)
    (regular : ∀ error, (run setup fuel progress).2 = .error error → error.isAvoidable = false)
    (small : budget ≤ 1) (told : writable ∨ times = [] ∧ entries (remarks ++ story) = 0)
    (enough : budget + fuel + 16 * times.length + 21 * entries (remarks ++ story) ≤ fuel')
    (further : ∀ rest times' reached, progress.Matches pipeline last times' reached →
      (writable ∨ times' = [] ∧ entries story = 0) →
      fuel + 16 * times'.length + 21 * entries story ≤ rest →
      EndsAlike pipeline final times' story reached.world (run setup fuel progress)
        (run woven rest reached)) :
    EndsAlike pipeline final times (remarks ++ story) other.world (run setup fuel progress)
      (run woven fuel' other) := by
  rw [entries_append] at told enough
  rcases keeps_up with ⟨world, error, ended, avoidable⟩ |
    ⟨count, times', reached, leads, matched, narrates⟩
  · have unavoidable := regular error (by cases fuel <;> rw [ended, run])
    rw [avoidable] at unavoidable
    simp at unavoidable
  · have steps := narrates.steps
    obtain ⟨rest, rfl⟩ : ∃ rest, fuel' = count + rest := ⟨fuel' - count, by omega⟩
    have still_told : writable ∨ times' = [] ∧ entries story = 0 := by
      apply told.imp_right
      rintro ⟨none_open, none_begins⟩
      rw [none_open, List.length_nil] at steps
      exact ⟨List.eq_nil_of_length_eq_zero (by omega), by omega⟩
    obtain ⟨images, worlds, agrees, printed_eq⟩ :=
      further rest times' reached matched still_told (by omega)
    rw [leads]
    exact ⟨images, worlds, agrees, printed_eq.trans (narrates.told _).symm⟩

/-- From points that agree, the woven run comes to an end that agrees with that of the original run,
and what it prints on the way tells the story of the original run. -/
theorem run_endsAlike (setups : setup.Matches pipeline woven) (fuel fuel' : Nat)
    {last : Option State} {times : List Int64} {progress other : Progress}
    (matched : progress.Matches pipeline last times other)
    (oblivious : ∀ state ∈ states setup fuel progress, state.isOblivious)
    (regular : ∀ error, (run setup fuel progress).2 = .error error → error.isAvoidable = false)
    (writable : progress.world.sink.IsReliable ∨
      times = [] ∧ entries (pipeline.story setup fuel progress) = 0)
    (enough :
      fuel + 16 * times.length + 21 * entries (pipeline.story setup fuel progress) ≤ fuel') :
    EndsAlike pipeline ((states setup fuel progress).getLast?.or last) times
      (pipeline.story setup fuel progress) other.world (run setup fuel progress)
      (run woven fuel' other) := by
  induction fuel generalizing fuel' last times progress other with
  | zero =>
      cases matched with
      | ended worlds agrees =>
          cases fuel' <;> exact ⟨_, worlds, agrees, by simp [outlook, Pipeline.story, spell, run,
            Progress.world]⟩
      | @running images margin margins state image matched index_eq =>
          have beyond : state.current.instruction? = none := by
            by_contra present
            have out_of_fuel := regular .outOfFuel (by simp [run, exhausted, present])
            simp [CallError.isAvoidable] at out_of_fuel
          have beyond' : image.current.instruction? = none ∧
              pipeline.place state.current.body.method state.current.index =
                image.current.index := by
            simp only [Activation.instruction?, Body.instruction?_eq, index_eq] at beyond ⊢
            exact getElem?_destination_eq_none matched.current.weaves beyond
          rw [run_fellOffEnd setup 0 beyond, run_fellOffEnd woven fuel' beyond'.1,
            failureAt_weaves matched.current.weaves, ← beyond'.2]
          exact ⟨images, matched.world, .fault .fellOffEnd rfl, by simp [outlook, Pipeline.story,
            spell, Progress.world]⟩
  | succ fuel ih =>
      cases matched with
      | ended worlds agrees =>
          cases fuel' <;> exact ⟨_, worlds, agrees, by simp [outlook, Pipeline.story, spell, run,
            Progress.world]⟩
      | @running images margin margins state image matched index_eq =>
          simp only [states, List.forall_mem_cons, run, Pipeline.story, Progress.world]
            at oblivious regular writable enough ⊢
          have step_writable : image.world.sink.IsReliable ∨
              starts (margin :: margins) = [] ∧ entries (pipeline.remarks setup state) = 0 := by
            rw [matched.world.sink.isReliable_iff]
            refine writable.imp_right fun silent => ⟨silent.1, ?_⟩
            have none_begins := silent.2
            rw [entries_append] at none_begins
            omega
          have same_sink : (step setup state).world.sink.failure? = state.world.sink.failure? := by
            obtain ⟨prints, turns⟩ := step_turns setup state
            exact turns.failure?_eq
          have last_eq : (state :: states setup fuel (step setup state)).getLast?.or last =
              (states setup fuel (step setup state)).getLast?.or (some state) := by
            rw [List.getLast?_cons]
            cases (states setup fuel (step setup state)).getLast? <;> rfl
          rw [last_eq]
          refine (keepsUp_step setups matched index_eq oblivious.1 step_writable).endsAlike regular
            (Nat.le_refl 1) writable (by omega) fun rest times' reached matched' told enough' => ?_
          exact ih rest matched' oblivious.2 regular (by rwa [Sink.IsReliable, same_sink]) enough'

end Runs

namespace Session

/-- What is told of a call. -/
def tale (session : Session) (pipeline : Pipeline) (name : String) (arguments : List Value) :
    List Remark :=
  ((session.begin name arguments).map fun progress =>
    pipeline.beginning 0 progress ++
      pipeline.story session.setup session.fuel progress).getD []

/-- A call over the woven class has the outcome of the call over the original one, and what either
of them prints is what the tale of the original call says. -/
structure Transparent (pipeline : Pipeline) (original traced : Session) (name : String)
    (arguments : List Value) : Prop where
  outcome : Agrees pipeline (original.visited name arguments).getLast?
    (original.invoke name arguments).1.world (traced.invoke name arguments).1.world
    (original.invoke name arguments).2 (traced.invoke name arguments).2
  /-- The original call prints the lines that the tale quotes. -/
  quoted : (original.invoke name arguments).1.world.printed.toList =
    (original.tale pipeline name arguments).filterMap Remark.said?
  /-- The traced call prints the lines that tell the tale by the clock. -/
  told : (traced.invoke name arguments).1.world.printed.toList =
    spell original.world.clock [] (original.tale pipeline name arguments)

theorem tale_of_begin {session : Session} {pipeline : Pipeline} {name : String}
    {arguments : List Value} {progress : Progress}
    (begun : session.begin name arguments = some progress) :
    session.tale pipeline name arguments = pipeline.beginning 0 progress ++
      pipeline.story session.setup session.fuel progress := by
  rw [tale, begun]
  rfl

section Calls

variable {pipeline : Pipeline} {file woven : ClassFile} {callDepth fuel : Nat} {clock : Clock}
  {sink : Sink} {name : String} {arguments : List Value}

/-- A call on a fresh session begins alike over both classes. -/
theorem begin_fresh (fuel' : Nat)
    (setups : Setup.Matches pipeline ⟨file, callDepth⟩ ⟨woven, callDepth⟩)
    (no_reference : ∀ object, Value.reference object ∉ arguments)
    (writable : sink.IsReliable ∨
      entries ((fresh file callDepth fuel clock sink).tale pipeline name arguments) = 0) :
    ((fresh file callDepth fuel clock sink).begin name arguments = none ∧
      (fresh woven callDepth fuel' clock sink).begin name arguments = none) ∨
    ∃ progress other, (fresh file callDepth fuel clock sink).begin name arguments = some progress ∧
      (fresh woven callDepth fuel' clock sink).begin name arguments = some other ∧
      KeepsUp pipeline ⟨woven, callDepth⟩ none (pipeline.beginning 0 progress) 0 [] progress other ∧
      progress.world.sink = sink ∧ progress.world.printed = #[] ∧ other.world.printed = #[] ∧
      other.world.clock = clock := by
  have quiet : ∀ progress, (fresh file callDepth fuel clock sink).begin name arguments =
      some progress → sink.IsReliable ∨ entries (pipeline.beginning 0 progress) = 0 := by
    intro progress begun
    apply writable.imp_right
    intro none_begins
    rw [tale_of_begin begun, entries_append] at none_begins
    omega
  have declared := method?_related setups name
  simp only [begin, fresh] at declared quiet ⊢
  generalize file.method? name = found at declared quiet ⊢
  generalize woven.method? name = found' at declared ⊢
  cases declared with
  | none => exact Or.inl ⟨rfl, rfl⟩
  | @some method method' weaves =>
      have static_eq :
          method'.declaration.access.isStatic = method.declaration.access.isStatic := by
        rw [declaration_weaves weaves]
      have initial := World.matches_initial clock (World.coherent_initial clock sink) (Or.inl rfl)
      have same_name : woven.name = file.name := setups.names
      right
      by_cases static : method.declaration.access.isStatic
      · simp only [static_eq, static, if_true] at quiet ⊢
        refine ⟨_, _, rfl, rfl, keepsUp_activate setups weaves initial .nil
          (Value.forall₂_matches [] no_reference) (quiet _ rfl), ?_⟩
        simp only [world_activate]
        exact ⟨rfl, rfl, rfl, rfl⟩
      · simp only [static_eq, static, same_name] at quiet ⊢
        have moves := initial.moves_allocate (.plain file.name)
        have receivers := World.found_allocate initial (.plain file.name)
          ((World.initial clock sink).allocate (.plain file.name)).2
        refine ⟨_, _, rfl, rfl, keepsUp_activate setups weaves moves.matched .nil
          (.cons (.reference receivers) (Value.forall₂_matches _ no_reference)) (quiet _ rfl), ?_⟩
        simp only [world_activate]
        exact ⟨rfl, rfl, rfl, rfl⟩

/-- A call of the woven class on a fresh session has the outcome of the same call of the original
class and tells its tale, if the budget allows for the injected sequences, the original call neither
reads the clock nor shows the place of an object, and it does not fail for lack of room or budget or
at the console.  A fresh session has handed out no references. -/
theorem invoke_transparent {fuel' : Nat} {report : Report}
    (ran : pipeline.weave file = .ok (woven, report))
    (no_reference : ∀ object, Value.reference object ∉ arguments)
    (oblivious : ∀ state ∈ (fresh file callDepth fuel clock sink).visited name arguments,
      state.isOblivious)
    (regular : ∀ error, ((fresh file callDepth fuel clock sink).invoke name arguments).2 =
      .error error → error.isAvoidable = false)
    (writable : sink.IsReliable ∨
      entries ((fresh file callDepth fuel clock sink).tale pipeline name arguments) = 0)
    (enough : fuel +
      21 * entries ((fresh file callDepth fuel clock sink).tale pipeline name arguments) ≤ fuel') :
    Transparent pipeline (fresh file callDepth fuel clock sink)
      (fresh woven callDepth fuel' clock sink) name arguments := by
  obtain ⟨name_eq, methods⟩ := Pipeline.weave_ok ran
  have setups : Setup.Matches pipeline ⟨file, callDepth⟩ ⟨woven, callDepth⟩ :=
    ⟨name_eq, methods, rfl⟩
  rcases begin_fresh fuel' setups no_reference writable with ⟨none_begun, none_begun'⟩ |
    ⟨progress, other, begun, begun', keeps_up, sink_eq, printed_eq, printed_eq', clock_eq⟩
  · refine ⟨?_, ?_, ?_⟩
    · simp only [invoke, none_begun, none_begun']
      exact .error (by simp)
    · simp only [invoke, none_begun, tale]
      rfl
    · simp only [invoke, none_begun', tale, none_begun]
      rfl
  · rw [tale_of_begin begun] at writable enough
    rw [visited, begun] at oblivious
    rw [invoke_of_begin begun] at regular
    simp only [fresh] at oblivious regular
    have flushes : (run ⟨file, callDepth⟩ fuel progress).1.sink.refusal? .flush = none := by
      cases failure : (run ⟨file, callDepth⟩ fuel progress).1.sink.refusal? .flush with
      | none => rfl
      | some reason =>
          have unavoidable := regular (.output reason) (by simp [settle, failure])
          simp [CallError.isAvoidable] at unavoidable
    simp only [settle, flushes] at regular
    have ends_alike : EndsAlike pipeline ((states ⟨file, callDepth⟩ fuel progress).getLast?.or none)
        [] (pipeline.beginning 0 progress ++ pipeline.story ⟨file, callDepth⟩ fuel progress)
        other.world (run ⟨file, callDepth⟩ fuel progress) (run ⟨woven, callDepth⟩ fuel' other) := by
      refine keeps_up.endsAlike regular (Nat.zero_le 1) (writable.imp_right fun none => ⟨rfl, none⟩)
        ?_ fun rest times' reached matched told enough' => ?_
      · rw [Nat.zero_add, List.length_nil, Nat.mul_zero, Nat.add_zero]
        exact enough
      · exact run_endsAlike setups fuel rest matched oblivious regular (sink_eq ▸ told) enough'
    obtain ⟨images, worlds, agrees, told⟩ := ends_alike
    have flushes' : (run ⟨woven, callDepth⟩ fuel' other).1.sink.refusal? .flush = none := by
      rw [worlds.sink.refusal?_eq, flushes]
    refine ⟨?_, ?_, ?_⟩
    · rw [invoke_of_begin begun, invoke_of_begin begun', visited, begun]
      simp only [fresh, settle, flushes, flushes']
      rw [Option.or_none] at agrees
      exact agrees.ask .flush
    · rw [invoke_of_begin begun, tale_of_begin begun, List.filterMap_append,
        Pipeline.said_beginning]
      apply (pipeline.printed_run ⟨file, callDepth⟩ fuel progress).trans
      rw [printed_eq]
      rfl
    · rw [invoke_of_begin begun', tale_of_begin begun]
      apply told.trans
      rw [outlook, printed_eq', clock_eq]
      rfl

/-- A marked method that prints a line, calls another marked one, and fails. -/
def chainFile : ClassFile :=
  { name := "Chain"
    methods :=
      [{ declaration :=
          { owner := "Chain", name := "outer", type := some ⟨[], none⟩, access := ⟨0x0008⟩
            kind := .function, annotations := ⟨["Timed"]⟩ }
         instructions :=
          [.getStatic console, .ldc "hello", .invoke .virtual println,
            .invoke .direct ⟨"Chain", "inner", ⟨[], some .int⟩⟩, .athrow]
         maxStack := 2
         maxLocals := 0 },
        { declaration :=
          { owner := "Chain", name := "inner", type := some ⟨[], some .int⟩, access := ⟨0x0008⟩
            kind := .function, annotations := ⟨["Timed"]⟩ }
          instructions := [.iconst 7, .ret (some .int)]
          maxStack := 1
          maxLocals := 0 }] }

theorem invoke_transparent_chainFile :
    ∃ woven report, Pipeline.timed.weave chainFile = .ok (woven, report) ∧
      (∀ object, Value.reference object ∉ ([] : List Value)) ∧
      (∀ state ∈ (fresh chainFile 8 100 (.steady 0 3) .reliable).visited "outer" [],
        state.isOblivious) ∧
      (∀ error, ((fresh chainFile 8 100 (.steady 0 3) .reliable).invoke "outer" []).2 =
        .error error → error.isAvoidable = false) ∧
      Sink.reliable.IsReliable ∧
      100 + 21 * entries
        ((fresh chainFile 8 100 (.steady 0 3) .reliable).tale .timed "outer" []) ≤ 142 ∧
      Transparent .timed (fresh chainFile 8 100 (.steady 0 3) .reliable)
        (fresh woven 8 142 (.steady 0 3) .reliable) "outer" [] := by
  have succeeds : (Pipeline.timed.weave chainFile).isOk = true := by decide
  have oblivious : ((fresh chainFile 8 100 (.steady 0 3) .reliable).visited "outer" []).all
      State.isOblivious = true := by decide +kernel
  have outcome : ((fresh chainFile 8 100 (.steady 0 3) .reliable).invoke "outer" []).2 =
      .error (.fault "Chain.outer" 4 (.typeMismatch "reference")) := by decide +kernel
  have enough : 100 + 21 * entries
      ((fresh chainFile 8 100 (.steady 0 3) .reliable).tale .timed "outer" []) ≤ 142 := by
    decide +kernel
  have regular : ∀ error, ((fresh chainFile 8 100 (.steady 0 3) .reliable).invoke "outer" []).2 =
      .error error → error.isAvoidable = false := by
    intro error failed
    rw [outcome] at failed
    obtain rfl := Except.error.inj failed
    rfl
  cases ran : Pipeline.timed.weave chainFile with
  | error cause => simp [ran, Except.isOk, Except.toBool] at succeeds
  | ok answer =>
      obtain ⟨woven, report⟩ := answer
      exact ⟨woven, report, rfl, by simp, List.all_eq_true.mp oblivious, regular, rfl, enough,
        invoke_transparent ran (by simp) (List.all_eq_true.mp oblivious) regular (Or.inl rfl)
          enough⟩

/-- A marked method that does nothing. -/
def restFile : ClassFile :=
  { name := "Rest"
    methods :=
      [{ declaration :=
          { owner := "Rest", name := "rest", type := some ⟨[], none⟩, access := ⟨0x0008⟩
            kind := .function, annotations := ⟨["Timed"]⟩ }
         instructions := [.ret none]
         maxStack := 0
         maxLocals := 0 }] }

/-- A marked method that makes a text and returns its argument. -/
def echoFile : ClassFile :=
  { name := "Echo"
    methods :=
      [{ declaration :=
          { owner := "Echo", name := "echo"
            type := some ⟨[.object "java/lang/Object"], some (.object "java/lang/Object")⟩
            access := ⟨0x0008⟩, kind := .function, annotations := ⟨["Timed"]⟩ }
         instructions := [.ldc "text", .pop, .load .reference 0, .ret (some .reference)]
         maxStack := 1
         maxLocals := 1 }] }

/-- A sink that takes no lines. -/
def closedSink : Sink :=
  .steady (some "sink is closed") none

/-- A traced call fails where lines cannot be written, though the original call prints none; and it
takes a reference that the session has not handed out for another object. -/
theorem not_transparent_closed_or_foreign :
    (∃ woven report, Pipeline.timed.weave restFile = .ok (woven, report) ∧
      (∀ state ∈ (fresh restFile 8 100 (.steady 0 0) closedSink).visited "rest" [],
        state.isOblivious) ∧
      ((fresh restFile 8 100 (.steady 0 0) closedSink).invoke "rest" []).2 = .ok none ∧
      100 + 21 * entries
        ((fresh restFile 8 100 (.steady 0 0) closedSink).tale .timed "rest" []) ≤ 121 ∧
      ¬Transparent .timed (fresh restFile 8 100 (.steady 0 0) closedSink)
        (fresh woven 8 121 (.steady 0 0) closedSink) "rest" []) ∧
    ∃ woven report, Pipeline.timed.weave echoFile = .ok (woven, report) ∧
      (∀ state ∈ (fresh echoFile 8 100 (.steady 0 0) .reliable).visited "echo" [.reference ⟨0⟩],
        state.isOblivious) ∧
      ((fresh echoFile 8 100 (.steady 0 0) .reliable).invoke "echo" [.reference ⟨0⟩]).2 =
        .ok (some (.reference ⟨0⟩)) ∧
      100 + 21 * entries
        ((fresh echoFile 8 100 (.steady 0 0) .reliable).tale .timed "echo" [.reference ⟨0⟩]) ≤ 121 ∧
      ¬Transparent .timed (fresh echoFile 8 100 (.steady 0 0) .reliable)
        (fresh woven 8 121 (.steady 0 0) .reliable) "echo" [.reference ⟨0⟩] := by
  constructor
  · have outcome : ((fresh restFile 8 100 (.steady 0 0) closedSink).invoke "rest" []).2 =
        .ok none := by
      decide +kernel
    have traced_outcome : (Pipeline.timed.weave restFile).map (fun answer =>
        ((fresh answer.1 8 121 (.steady 0 0) closedSink).invoke "rest" []).2) =
          .ok (.error (.output "sink is closed")) := by
      decide +kernel
    have oblivious : ((fresh restFile 8 100 (.steady 0 0) closedSink).visited "rest" []).all
        State.isOblivious = true := by decide +kernel
    cases ran : Pipeline.timed.weave restFile with
    | error cause => simp [ran, Except.map] at traced_outcome
    | ok answer =>
        obtain ⟨woven, report⟩ := answer
        simp only [ran, Except.map, Except.ok.injEq] at traced_outcome
        refine ⟨woven, report, rfl, List.all_eq_true.mp oblivious, outcome, by decide +kernel,
          fun transparent => ?_⟩
        have agrees := transparent.outcome
        rw [outcome, traced_outcome] at agrees
        cases agrees
  · have outcome : ((fresh echoFile 8 100 (.steady 0 0) .reliable).invoke "echo"
        [.reference ⟨0⟩]).2 = .ok (some (.reference ⟨0⟩)) := by
      decide +kernel
    have object : ((fresh echoFile 8 100 (.steady 0 0) .reliable).invoke "echo"
        [.reference ⟨0⟩]).1.world.object? ⟨0⟩ = some (.text "text") := by
      decide +kernel
    have traced_outcome : (Pipeline.timed.weave echoFile).map (fun answer =>
        ((fresh answer.1 8 121 (.steady 0 0) .reliable).invoke "echo" [.reference ⟨0⟩]).2) =
          .ok (.ok (some (.reference ⟨0⟩))) := by
      decide +kernel
    have traced_object : (Pipeline.timed.weave echoFile).map (fun answer =>
        ((fresh answer.1 8 121 (.steady 0 0) .reliable).invoke "echo"
          [.reference ⟨0⟩]).1.world.object? ⟨0⟩) = .ok (some .console) := by
      decide +kernel
    have oblivious : ((fresh echoFile 8 100 (.steady 0 0) .reliable).visited "echo"
        [.reference ⟨0⟩]).all State.isOblivious = true := by decide +kernel
    cases ran : Pipeline.timed.weave echoFile with
    | error cause => simp [ran, Except.map] at traced_outcome
    | ok answer =>
        obtain ⟨woven, report⟩ := answer
        simp only [ran, Except.map, Except.ok.injEq] at traced_outcome traced_object
        refine ⟨woven, report, rfl, List.all_eq_true.mp oblivious, outcome, by decide +kernel,
          fun transparent => ?_⟩
        have agrees := transparent.outcome
        rw [outcome, traced_outcome] at agrees
        rcases agrees with _ | ⟨⟨plain⟩ | ⟨here, there⟩⟩
        · exact plain _ rfl
        · rw [object] at here
          rw [traced_object, ← here] at there
          simp at there

end Calls
end Session
end Machine
end MethodTracing
