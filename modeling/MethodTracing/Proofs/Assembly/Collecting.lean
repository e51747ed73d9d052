import MethodTracing.Assembly.Chain

/-!
# Collecting from any calls

A writer takes the calls of a builder in any order and number: definitions without closing, closing
twice, methods outside of any class, bodies that are finished several times or never.  The classes
that it holds in the end are read off the calls: every call that opens a class stands for this
class, and every finished body for a method of the class that was open when the method began.
-/

namespace MethodTracing
namespace Assembly

/-! ## One method -/

namespace BodyEvent

/-- The instructions that an event adds to a body. -/
def added : BodyEvent → List Instruction
  | instructions run => run
  | _ => []

/-- The limits that an event sets, operands before locals. -/
def limits? : BodyEvent → Option (UInt16 × UInt16)
  | limits maxStack maxLocals => some (maxStack, maxLocals)
  | _ => none

end BodyEvent

/-- The method that events describe: all instructions in order, and the last limits. -/
def described (declaration : Declaration) (events : List BodyEvent) : Method :=
  let limits := (events.filterMap BodyEvent.limits?).getLast?.getD (0, 0)
  { declaration
    instructions := events.flatMap BodyEvent.added
    maxStack := limits.1
    maxLocals := limits.2 }

/-- The methods that events complete, each described by the events since the completion before;
what follows the last completion is lost. -/
def completions (declaration : Declaration) (events : List BodyEvent) : List Method :=
  (events.splitOn .finish).dropLast.map (described declaration)

section Described

variable (declaration : Declaration) (events : List BodyEvent)

theorem described_concat_code :
    described declaration (events ++ [.code]) = described declaration events := by
  simp [described, BodyEvent.added, BodyEvent.limits?]

theorem described_concat_instructions (run : List Instruction) :
    described declaration (events ++ [.instructions run]) =
      { described declaration events with
        instructions := (described declaration events).instructions ++ run } := by
  simp [described, BodyEvent.added, BodyEvent.limits?]

theorem described_concat_limits (maxStack maxLocals : UInt16) :
    described declaration (events ++ [.limits maxStack maxLocals]) =
      { described declaration events with maxStack, maxLocals } := by
  simp [described, BodyEvent.added, BodyEvent.limits?]

end Described

theorem completions_append_finish {before : List BodyEvent} (declaration : Declaration)
    (unfinished : .finish ∉ before) (after : List BodyEvent) :
    completions declaration (before ++ .finish :: after) =
      described declaration before :: completions declaration after := by
  rw [completions, List.splitOn_append_cons_self_of_not_mem unfinished,
    List.dropLast_cons_of_ne_nil (List.splitOn_ne_nil _ _), List.map_cons, completions]

theorem completions_of_unfinished {events : List BodyEvent} (declaration : Declaration)
    (unfinished : .finish ∉ events) : completions declaration events = [] := by
  rw [completions, List.splitOn_eq_singleton unfinished]
  rfl

/-- Without layers the writer of a method completes what the events describe, and never fails. -/
theorem foldl_take {before : List BodyEvent} (declaration : Declaration)
    (unfinished : .finish ∉ before) (completed : List Method)
    (outcomes : List (Except WeaveError Unit)) (events : List BodyEvent) :
    ∃ arriving, events.foldl Construction.take
        ⟨[], described declaration before, completed, outcomes⟩ =
      ⟨[], arriving, completed ++ completions declaration (before ++ events),
        outcomes ++ .replicate (events.count .finish) (.ok ())⟩ := by
  -- `before` is what was taken since the last completion.
  induction events generalizing before completed outcomes with
  | nil =>
      refine ⟨described declaration before, ?_⟩
      simp [completions_of_unfinished declaration unfinished]
  | cons event rest ih =>
      have later (other : event ≠ .finish) : .finish ∉ before ++ [event] := by
        simpa [unfinished] using other.symm
      rw [List.foldl_cons]
      cases event with
      | code =>
          have taken := ih (later (by simp)) completed outcomes
          rw [described_concat_code, List.append_assoc] at taken
          simpa [Construction.take] using taken
      | instructions run =>
          have taken := ih (later (by simp)) completed outcomes
          rw [described_concat_instructions, List.append_assoc] at taken
          simpa [Construction.take, Construction.edit, change] using taken
      | limits maxStack maxLocals =>
          have taken := ih (later (by simp)) completed outcomes
          rw [described_concat_limits, List.append_assoc] at taken
          simpa [Construction.take, Construction.edit, change] using taken
      | finish =>
          obtain ⟨arriving, taken⟩ := @ih [] (by simp)
            (completed ++ [described declaration before]) (outcomes ++ [.ok ()])
          refine ⟨arriving, Eq.trans ?_ (taken.trans ?_)⟩
          · rfl
          · simp [completions_append_finish declaration unfinished, List.replicate_succ]

/-- Each completion gives one method. -/
theorem length_completions (declaration : Declaration) (events : List BodyEvent) :
    (completions declaration events).length = events.count .finish := by
  simp only [completions, List.length_map, List.length_dropLast]
  induction events with
  | nil => simp
  | cons event rest ih =>
      have some_piece := List.length_pos_iff.mpr (List.splitOn_ne_nil BodyEvent.finish rest)
      rw [List.splitOn_cons_eq_if_modifyHead, List.count_cons]
      split
      · rw [List.length_cons]
        omega
      · rw [List.length_modifyHead]
        omega

/-! ## Calls -/

/-- A call on a builder of classes. -/
inductive Call
  /-- Open a class. -/
  | define (name : String)
  /-- Close the open class. -/
  | close
  /-- Construct a method by any events. -/
  | method (declaration : Declaration) (events : List BodyEvent)
  deriving DecidableEq

/-- The chain after a call. -/
def Chain.perform (chain : Chain) : Call → Chain
  | .define name => chain.define name
  | .close => chain.close
  | .method declaration events => (chain.method declaration events).1

namespace Call

/-- Whether a call constructs a method. -/
def isMethod : Call → Bool
  | method .. => true
  | _ => false

/-- The events by which a call constructs a method. -/
def events : Call → List BodyEvent
  | method _ events => events
  | _ => []

/-- The methods that a call completes. -/
def methods : Call → List Method
  | method declaration events => completions declaration events
  | _ => []

/-- The name of the class that a call opens, given the call before it: a method opens a nameless
class if none is open, that is, right after a closing. -/
def opens? : Call → Call → Option String
  | define name, _ => some name
  | close, _ => none
  | method .., previous => if previous = close then some "" else none

/-- The call that constructs a method as a whole. -/
def ofMethod (whole : Method) : Call :=
  method whole.declaration (BodyEvent.ofMethod whole)

/-- The calls that build a class. -/
def ofFile (file : ClassFile) : List Call :=
  define file.name :: file.methods.map ofMethod ++ [close]

end Call

/-- The methods that the next calls add to the open class. -/
def received (calls : List Call) : List Method :=
  (calls.takeWhile Call.isMethod).flatMap Call.methods

/-- The classes that calls open, given the call before the first of them: in the order in which they
are opened, each with the methods that it receives as long as it is open. -/
def collected (previous : Call) : List Call → List ClassFile
  | [] => []
  | call :: rest =>
      ((call.opens? previous).map fun name => ⟨name, call.methods ++ received rest⟩).toList ++
        collected call rest

@[simp]
theorem received_define (name : String) (rest : List Call) :
    received (.define name :: rest) = [] := rfl

@[simp]
theorem received_close (rest : List Call) : received (.close :: rest) = [] := rfl

@[simp]
theorem received_method (declaration : Declaration) (events : List BodyEvent) (rest : List Call) :
    received (.method declaration events :: rest) =
      completions declaration events ++ received rest := rfl

section Calls

variable (writer : Writer)

theorem method_of_no_layers (declaration : Declaration) (events : List BodyEvent) :
    (Chain.mk [] writer).method declaration events =
      (⟨[], writer.store (completions declaration events)⟩,
        .replicate (events.count .finish) (.ok ())) := by
  obtain ⟨arriving, taken⟩ := @foldl_take [] declaration (by simp) [] [] events
  have started : Construction.start declaration [] = ⟨[], described declaration [], [], []⟩ := rfl
  simp [Chain.method, started, taken]

/-- A call is carried out by the writer alone. -/
theorem perform_of_no_layers (call : Call) :
    (Chain.mk [] writer).perform call =
      ⟨[], match call with
        | .define name => writer.define name
        | .close => writer.close
        | .method declaration events => writer.store (completions declaration events)⟩ := by
  cases call with
  | define name => rfl
  | close => rfl
  | method declaration events => rw [Chain.perform, method_of_no_layers]

/-- The classes that calls leave behind a writer: those it has closed, the one that it has open with
what it still receives, and those that are opened later. -/
theorem classes_foldl_perform (calls : List Call) (previous : Call)
    (idle_iff : writer.current = none ↔ previous = .close) :
    (calls.foldl Chain.perform ⟨[], writer⟩).writer.classes =
      writer.closed ++
        (writer.current.map fun file => ⟨file.name, file.methods ++ received calls⟩).toList ++
          collected previous calls := by
  induction calls generalizing writer previous with
  | nil => simp [Writer.classes, received, collected]
  | cons call rest ih =>
      rw [List.foldl_cons, perform_of_no_layers, collected]
      cases call with
      | define name =>
          rw [ih (writer.define name) (.define name) (by simp [Writer.define])]
          simp [Writer.define, Writer.classes, Call.opens?, Call.methods]
      | close =>
          rw [ih writer.close .close (by simp [Writer.close])]
          simp [Writer.close, Writer.classes, Call.opens?]
      | method declaration events =>
          rw [ih (writer.store (completions declaration events)) (.method declaration events)
            (by simp [Writer.store])]
          cases opened : writer.current with
          | none =>
              have closing : previous = .close := idle_iff.mp opened
              simp [Writer.store, Writer.receiving, opened, closing, Call.opens?, Call.methods]
          | some file =>
              have opening : previous ≠ .close := fun closing => by
                simp [idle_iff.mpr closing] at opened
              simp [Writer.store, Writer.receiving, opened, opening, Call.opens?]

/-- Every call adds to the methods held by a writer those that it completes. -/
theorem methods_foldl_perform (calls : List Call) :
    (calls.foldl Chain.perform ⟨[], writer⟩).writer.classes.flatMap ClassFile.methods =
      writer.classes.flatMap ClassFile.methods ++ calls.flatMap Call.methods := by
  induction calls generalizing writer with
  | nil => simp
  | cons call rest ih =>
      rw [List.foldl_cons, perform_of_no_layers, ih, List.flatMap_cons, ← List.append_assoc]
      congr 1
      cases call with
      | define name => simp [Writer.define, Writer.classes, Call.methods]
      | close => simp [Writer.close, Writer.classes, Call.methods]
      | method declaration events =>
          cases opened : writer.current <;>
            simp [Writer.store, Writer.receiving, Writer.classes, opened, Call.methods]

end Calls

/-! ## Whole classes -/

theorem completions_ofMethod (method : Method) :
    completions method.declaration (BodyEvent.ofMethod method) = [method] := by
  have unfinished : BodyEvent.finish ∉
      [.code, .instructions method.instructions, .limits method.maxStack method.maxLocals] := by
    simp
  refine (completions_append_finish method.declaration unfinished []).trans ?_
  rw [completions_of_unfinished method.declaration (by simp)]
  simp [described, BodyEvent.added, BodyEvent.limits?, List.findSome?]

theorem received_ofMethods (methods : List Method) (rest : List Call) :
    received (methods.map Call.ofMethod ++ .close :: rest) = methods := by
  induction methods with
  | nil => simp
  | cons method later ih => simp [Call.ofMethod, completions_ofMethod, ih]

theorem collected_ofMethods {previous : Call} (opening : previous ≠ .close)
    (methods : List Method) (rest : List Call) :
    collected previous (methods.map Call.ofMethod ++ .close :: rest) = collected .close rest := by
  induction methods generalizing previous with
  | nil => simp [collected, Call.opens?]
  | cons method later ih =>
      rw [List.map_cons, List.cons_append, collected, ih (by simp [Call.ofMethod])]
      simp [Call.ofMethod, Call.opens?, opening]

/-- The calls for classes open these classes. -/
theorem collected_ofFiles (previous : Call) (files : List ClassFile) :
    collected previous (files.flatMap Call.ofFile) = files := by
  induction files generalizing previous with
  | nil => rfl
  | cons file rest ih =>
      have calls_eq : (file :: rest).flatMap Call.ofFile =
          .define file.name ::
            (file.methods.map Call.ofMethod ++ .close :: rest.flatMap Call.ofFile) := by
        simp [Call.ofFile]
      rw [calls_eq, collected, collected_ofMethods (by simp), received_ofMethods, ih]
      rfl

theorem failure?_replicate_ok (number : Nat) :
    Chain.failure? (.replicate number (.ok ())) = none := by
  induction number with
  | zero => rfl
  | succ number ih => rw [List.replicate_succ, Chain.failure?, ih]

namespace Chain

/-- Build classes one after another; the first failure ends it. -/
def acceptAll (chain : Chain) : List ClassFile → Chain × Except WeaveError Unit
  | [] => (chain, .ok ())
  | file :: rest =>
      match chain.accept file with
      | (chain, .ok ()) => chain.acceptAll rest
      | (chain, .error cause) => (chain, .error cause)

theorem acceptMethods_of_no_layers (writer : Writer) (methods : List Method) :
    (Chain.mk [] writer).acceptMethods methods =
      ((methods.map Call.ofMethod ++ [Call.close]).foldl perform ⟨[], writer⟩, .ok ()) := by
  induction methods generalizing writer with
  | nil => rfl
  | cons method rest ih =>
      rw [acceptMethods, method_of_no_layers]
      simp only [failure?_replicate_ok, ih, List.map_cons, List.cons_append, List.foldl_cons,
        Call.ofMethod, perform, method_of_no_layers]

theorem layers_foldl_perform (writer : Writer) (calls : List Call) :
    (calls.foldl perform ⟨[], writer⟩).layers = [] := by
  induction calls generalizing writer with
  | nil => rfl
  | cons call rest ih => rw [List.foldl_cons, perform_of_no_layers, ih]

/-- A writer builds classes by the calls for them. -/
theorem acceptAll_of_no_layers (writer : Writer) (files : List ClassFile) :
    (Chain.mk [] writer).acceptAll files =
      ((files.flatMap Call.ofFile).foldl perform ⟨[], writer⟩, .ok ()) := by
  induction files generalizing writer with
  | nil => rfl
  | cons file rest ih =>
      have accepted : (Chain.mk [] writer).accept file =
          ((Call.ofFile file).foldl perform ⟨[], writer⟩, .ok ()) := by
        rw [accept, define, acceptMethods_of_no_layers]
        rfl
      have bare := layers_foldl_perform writer (Call.ofFile file)
      rw [acceptAll, accepted, List.flatMap_cons, List.foldl_append]
      generalize (Call.ofFile file).foldl perform ⟨[], writer⟩ = after at bare ⊢
      obtain ⟨layers, writer⟩ := after
      cases bare
      exact ih writer

/-- Whatever calls reach a fresh writer, which is like one that was just closed, it holds in the end
the classes that the calls open, in their order; their methods are those that the calls complete, in
their order and one for each completion.  So classes that are built one after another are the
classes held. -/
theorem classes_of_calls (calls : List Call) (files : List ClassFile) :
    (calls.foldl perform (ofLayers [])).writer.classes = collected .close calls ∧
      (collected .close calls).flatMap ClassFile.methods = calls.flatMap Call.methods ∧
      (calls.flatMap Call.methods).length = (calls.flatMap Call.events).count .finish ∧
      ∃ after, (ofLayers []).acceptAll files = (after, .ok ()) ∧ after.writer.classes = files := by
  have classes_eq (calls : List Call) :
      (calls.foldl perform (ofLayers [])).writer.classes = collected .close calls := by
    rw [ofLayers, classes_foldl_perform .empty calls .close (by simp [Writer.empty])]
    rfl
  refine ⟨classes_eq calls, ?_, ?_, _, acceptAll_of_no_layers .empty files, ?_⟩
  · rw [← classes_eq, ofLayers, methods_foldl_perform]
    rfl
  · induction calls with
    | nil => rfl
    | cons call rest ih =>
        simp only [List.flatMap_cons, List.length_append, List.count_append, ih]
        congr 1
        cases call with
        | method declaration events => exact length_completions declaration events
        | _ => rfl
  · exact (classes_eq _).trans (collected_ofFiles .close files)

end Chain
end Assembly
end MethodTracing
