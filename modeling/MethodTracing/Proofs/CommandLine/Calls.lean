import MethodTracing.CommandLine.Session
import MethodTracing.Proofs.Machine.Attendance

/-!
# Calls made from the command line

A command that makes a call leaves behind what it would leave behind if the call were made with the
clock and the sink that the call meets while it is attended to.  Lines that were printed by then
stand before everything else.
-/

namespace MethodTracing
namespace CommandLine

/-- A transcript with a text printed before. -/
def Transcript.behind (transcript : Transcript) (text : String) : Transcript :=
  { transcript with output := text ++ transcript.output }

/-- What is told in the end of a call does not depend on what lies outside, its lines aside. -/
theorem finish_facing (task : Task) (world : Machine.World) (outside : Machine.Outside)
    (outcome : Except Machine.CallError (Option Machine.Value)) :
    (finish task (world.facing outside) outcome) =
      (finish task (world.facing (.still 0 none)) outcome).behind (world.facing outside).output := by
  have silent : (world.facing (.still 0 none)).output = "" := rfl
  cases outcome with
  | error cause => simp [finish, Transcript.behind, silent]
  | ok value =>
      have same : valueLine (world.facing outside) value =
          valueLine (world.facing (.still 0 none)) value := rfl
      simp [finish, Transcript.behind, silent, same]

/-- Attending to the call of a command and telling its outcome is carrying out the command. -/
theorem perform_of_call {files : Files} {command : Command} {task : Task}
    (asked : begin files command = .call task) (clock : Machine.Clock) (sink : Machine.Sink) :
    ∃ world outcome, task.attend.follow ⟨clock, sink, #[]⟩ = (world, outcome) ∧
      perform files clock sink command =
        (finish task (world.facing (.still 0 none)) outcome).behind world.output := by
  refine ⟨_, _, Machine.Session.follow_attend .., ?_⟩
  rw [perform, asked]
  exact finish_facing task _ (Machine.World.outside _) _

end CommandLine
end MethodTracing
