import MethodTracing.Proofs.Machine.Sequences
import MethodTracing.Proofs.Machine.Sessions
import MethodTracing.Proofs.Pipeline.Passes

/-!
# The story of a run

What a run of a class that is not woven has to say about its selected methods: when one of them
begins, what is printed, and when one of them returns.  A clock turns the story into lines.  Main
statement: what the story quotes is what the run prints.
-/

namespace MethodTracing

/-- What is told of a run. -/
inductive Trace.Remark
  /-- A selected method begins. -/
  | entered (name : String)
  /-- A line is printed. -/
  | said (line : String)
  /-- A selected method returns. -/
  | left (name : String)
  deriving DecidableEq

namespace Machine

open Trace

/-- The lines that tell a story: the time is taken when a method begins and when it returns, and the
times at which methods began are those of the methods that have not returned, the innermost
first. -/
def spell (clock : Clock) (starts : List Int64) : List Remark → List String
  | [] => []
  | .entered name :: rest => entryLine name :: spell clock.tick (clock.now :: starts) rest
  | .said line :: rest => line :: spell clock starts rest
  | .left name :: rest =>
      match starts with
      | [] => spell clock [] rest
      | began :: starts =>
          exitLine name (clock.now - began).toInt :: spell clock.tick starts rest

theorem spell_said (clock : Clock) (starts : List Int64) (lines : List String)
    (rest : List Remark) :
    spell clock starts (lines.map .said ++ rest) = lines ++ spell clock starts rest := by
  induction lines with
  | nil => rfl
  | cons line lines ih => simp [spell, ih]

end Machine

namespace Trace

/-- The line that a remark quotes. -/
def Remark.said? : Remark → Option String
  | said line => some line
  | _ => none

/-- How often a selected method begins. -/
def entries (remarks : List Remark) : Nat :=
  remarks.countP fun remark => remark matches .entered _

@[simp]
theorem entries_append (left right : List Remark) :
    entries (left ++ right) = entries left + entries right :=
  List.countP_append

@[simp]
theorem entries_said (lines : List String) : entries (lines.map .said) = 0 := by
  simp [entries, List.countP_eq_zero]

theorem filterMap_said (lines : List String) :
    (lines.map .said).filterMap Remark.said? = lines := by
  induction lines with
  | nil => rfl
  | cons line lines ih => simp [Remark.said?, ih]

end Trace

namespace Pipeline

open Trace Machine

variable (pipeline : Pipeline)

/-- What is told when an activation of a method begins. -/
def arrival (method : Method) : List Remark :=
  if pipeline.selects method.declaration then [.entered method.declaration.name] else []

/-- What is told when an activation executes an instruction. -/
def departure (method : Method) (instruction : Instruction) : List Remark :=
  if instruction.isReturn && pipeline.selects method.declaration then
    [.left method.declaration.name]
  else []

/-- What is told of a run that has reached a number of callers before. -/
def beginning (depth : Nat) : Progress → List Remark
  | .running state =>
      if depth ≤ state.callers.length then pipeline.arrival state.current.body.method else []
  | .ended _ _ => []

theorem beginning_of_lt {depth : Nat} {state : State} (shallow : state.callers.length < depth) :
    pipeline.beginning depth (.running state) = [] :=
  if_neg (Nat.not_le.mpr shallow)

/-- What is told of a step: the method may return, a line may be printed, a method may begin. -/
def remarks (setup : Setup) (state : State) : List Remark :=
  (state.current.instruction?.map (pipeline.departure state.current.body.method)).getD [] ++
    ((step setup state).world.printed.toList.drop state.world.printed.size).map .said ++
    pipeline.beginning (state.callers.length + 1) (step setup state)

/-- What is told of the steps of a run. -/
def story (setup : Setup) : Nat → Progress → List Remark
  | fuel + 1, .running state =>
      pipeline.remarks setup state ++ story setup fuel (step setup state)
  | _, _ => []

theorem said_beginning (depth : Nat) (progress : Progress) :
    (pipeline.beginning depth progress).filterMap Remark.said? = [] := by
  unfold beginning arrival
  repeat' split
  all_goals rfl

theorem said_departure (method : Method) (instruction : Instruction) :
    (pipeline.departure method instruction).filterMap Remark.said? = [] := by
  unfold departure
  split <;> rfl

theorem said_remarks (setup : Setup) (state : State) :
    (pipeline.remarks setup state).filterMap Remark.said? =
      (step setup state).world.printed.toList.drop state.world.printed.size := by
  have departing : ((state.current.instruction?.map
      (pipeline.departure state.current.body.method)).getD []).filterMap Remark.said? = [] := by
    cases state.current.instruction? with
    | none => rfl
    | some instruction => exact pipeline.said_departure _ instruction
  rw [remarks, List.filterMap_append, List.filterMap_append, departing, said_beginning,
    filterMap_said, List.nil_append, List.append_nil]

/-- A run prints what its story quotes. -/
theorem printed_run (setup : Setup) (fuel : Nat) (progress : Progress) :
    (run setup fuel progress).1.printed.toList =
      progress.world.printed.toList ++
        (pipeline.story setup fuel progress).filterMap Remark.said? := by
  induction fuel generalizing progress with
  | zero => cases progress <;> simp [run, story, Progress.world]
  | succ fuel ih =>
      cases progress with
      | ended world outcome => simp [run, story, Progress.world]
      | running state =>
          obtain ⟨prints, turns⟩ := step_turns setup state
          obtain ⟨lines, printed_eq⟩ := turns.printed_grows
          simp only [run, story]
          rw [ih, List.filterMap_append, said_remarks, ← printed_eq, ← Array.length_toList,
            List.drop_left, List.append_assoc]
          rfl

end Pipeline
end MethodTracing
