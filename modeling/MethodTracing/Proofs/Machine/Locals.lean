import MethodTracing.Proofs.Machine.Accounts
import MethodTracing.Proofs.Machine.Histories

/-!
# Locals as records of writes

A run is followed together with a record of what each of its activations has written to its locals:
its arguments first, then what its instructions store.  Every local holds what the last write to its
slot left there.

Main statement: a `long` is loaded from a slot if and only if the last write to this slot stored it
there.  The slot after it is not looked at, so a `long` stays readable when its second half is
overwritten.
-/

namespace MethodTracing
namespace Machine

/-! ## Records -/

namespace Write

/-- Whether a write sets a slot, with its value or with the second half of it. -/
def covers (write : Write) (slot : Nat) : Bool :=
  write.slot ≤ slot && slot < write.slot + write.value.width

/-- What a write leaves in a slot that it covers. -/
def leaves (write : Write) (slot : Nat) : Value :=
  if slot = write.slot then write.value else .top

theorem getElem?_onto {write : Write} {locals : Array Value}
    (inside : write.slot + write.value.width ≤ locals.size) (slot : Nat) :
    (write.onto locals)[slot]? =
      if write.covers slot then some (write.leaves slot) else locals[slot]? := by
  obtain ⟨first, value⟩ := write
  have width_pos := value.width_pos
  have width_le := value.width_le_two
  simp only [onto, covers, leaves, Bool.and_eq_true, decide_eq_true_eq] at inside ⊢
  by_cases wide : value.width = 2
  · rw [if_pos wide, Array.getElem?_setIfInBounds, Array.getElem?_setIfInBounds,
      Array.size_setIfInBounds]
    split
    · rw [if_pos (by omega), if_pos (by omega), if_neg (by omega)]
    · split
      · rw [if_pos (by omega), if_pos (by omega), if_pos (by omega)]
      · rw [if_neg (by omega)]
  · rw [if_neg wide, Array.getElem?_setIfInBounds]
    split
    · rw [if_pos (by omega), if_pos (by omega), if_pos (by omega)]
    · rw [if_neg (by omega)]

end Write

/-- The last write to a slot; writes are recorded from the latest to the first. -/
def lastWrite? (record : List Write) (slot : Nat) : Option Write :=
  record.find? (·.covers slot)

/-- What writes have left in a slot that was not set before. -/
def leftIn (record : List Write) (slot : Nat) : Value :=
  ((lastWrite? record slot).map (·.leaves slot)).getD .top

/-- A write to the slot itself is the last one. -/
theorem leftIn_cons (write : Write) (record : List Write) (slot : Nat) :
    leftIn (write :: record) slot =
      if write.covers slot then write.leaves slot else leftIn record slot := by
  simp only [leftIn, lastWrite?, List.find?_cons]
  cases write.covers slot <;> rfl

/-- A slot holds a `long` if and only if the last write to it stored the `long` there. -/
theorem leftIn_eq_long_iff {record : List Write} {slot : Nat} {value : Int64} :
    leftIn record slot = .long value ↔ lastWrite? record slot = some ⟨slot, .long value⟩ := by
  rw [leftIn]
  cases lastWrite? record slot with
  | none => simp
  | some write =>
      obtain ⟨first, stored⟩ := write
      simp only [Option.map_some, Option.getD_some, Write.leaves, Option.some.injEq, Write.mk.injEq]
      split
      · rename_i same
        simp [same]
      · rename_i different
        simp [Ne.symm different]

/-- The writes that lay out arguments, one after another from a slot on. -/
def layOutWrites (slot : Nat) : List Value → List Write
  | [] => []
  | argument :: rest => ⟨slot, argument⟩ :: layOutWrites (slot + argument.width) rest

namespace Frame

/-- The locals of a frame hold what the writes of a record have left there. -/
structure Remembers (record : List Write) (frame : Frame) : Prop where
  inside : ∀ write ∈ record, write.slot + write.value.width ≤ frame.locals.size
  locals_eq : ∀ slot < frame.locals.size, frame.locals[slot]? = some (leftIn record slot)

variable {record : List Write} {frame after : Frame}

theorem remembers_empty (maxStack : UInt16) (maxLocals : Nat) :
    (empty maxStack maxLocals).Remembers [] := by
  refine ⟨by simp, fun slot inside => ?_⟩
  have bound : slot < maxLocals := by simpa [empty] using inside
  simp [empty, leftIn, lastWrite?, bound]

theorem Remembers.wrote (remembers : frame.Remembers record) (write? : Option Write)
    (wrote : frame.Wrote after write?) : after.Remembers (write?.toList ++ record) := by
  cases write? with
  | none =>
      have same : after.locals = frame.locals := wrote
      exact ⟨by simpa [same] using remembers.inside, by simpa [same] using remembers.locals_eq⟩
  | some write =>
      obtain ⟨inside, locals_eq⟩ := wrote
      have size_eq : after.locals.size = frame.locals.size := by
        rw [locals_eq, Write.size_onto]
      refine ⟨?_, fun slot bound => ?_⟩
      · rw [size_eq]
        exact List.forall_mem_cons.mpr ⟨inside, remembers.inside⟩
      · rw [locals_eq, Write.getElem?_onto inside, remembers.locals_eq slot (size_eq ▸ bound)]
        change _ = some (leftIn (write :: record) slot)
        rw [leftIn_cons]
        split <;> rfl

theorem Remembers.layOut (remembers : frame.Remembers record) (slot : Nat)
    (arguments : List Value) :
    Answers (Remembers ((layOutWrites slot arguments).reverse ++ record))
      (frame.layOut slot arguments) := by
  induction arguments generalizing frame slot record with
  | nil => exact .ok remembers
  | cons argument rest ih =>
      simp only [Frame.layOut, layOutWrites, List.reverse_cons, List.append_assoc]
      cases stored : frame.store slot argument with
      | error fault => exact .error _
      | ok middle =>
          obtain ⟨inside, rfl⟩ := store_eq_ok_iff.mp stored
          exact ih (remembers.wrote (some ⟨slot, argument⟩) ⟨inside, rfl⟩) _

/-- What a record says about each `long` among the locals. -/
structure KeepsLongs (record : List Write) (frame : Frame) : Prop where
  /-- Every local holds what the last write to its slot left there. -/
  locals_eq : ∀ slot < frame.locals.size, frame.locals[slot]? = some (leftIn record slot)
  /-- There is a slot for the second half, and it is unset unless it was written later. -/
  followed : ∀ slot value, frame.locals[slot]? = some (.long value) →
    slot + 1 < frame.locals.size ∧
      (lastWrite? record (slot + 1) = lastWrite? record slot →
        frame.locals[slot + 1]? = some .top)
  /-- A `long` is loaded if and only if the last write to its first slot stored it there. -/
  load_eq_ok_iff : ∀ slot value, frame.load slot .long = .ok value ↔
    ∃ number, value = .long number ∧ lastWrite? record slot = some ⟨slot, .long number⟩

theorem Remembers.eq_long_iff (remembers : frame.Remembers record) {slot : Nat} {value : Int64} :
    frame.locals[slot]? = some (.long value) ↔
      lastWrite? record slot = some ⟨slot, .long value⟩ := by
  rw [← leftIn_eq_long_iff]
  by_cases bound : slot < frame.locals.size
  · rw [remembers.locals_eq slot bound, Option.some.injEq]
  · rw [Array.getElem?_eq_none (by omega)]
    refine ⟨by simp, fun left => ?_⟩
    have inside := remembers.inside _ (List.mem_of_find?_eq_some (leftIn_eq_long_iff.mp left))
    simp only [Value.width] at inside
    omega

theorem Remembers.keepsLongs (remembers : frame.Remembers record) : frame.KeepsLongs record := by
  have fits {slot : Nat} {value : Int64} (found : frame.locals[slot]? = some (.long value)) :
      slot + 2 ≤ frame.locals.size :=
    remembers.inside _ (List.mem_of_find?_eq_some (remembers.eq_long_iff.mp found))
  refine ⟨remembers.locals_eq, fun slot value found => ?_, fun slot value => ?_⟩
  · have bound : slot + 1 < frame.locals.size := fits found
    refine ⟨bound, fun same => ?_⟩
    rw [remembers.locals_eq _ bound, leftIn, same, remembers.eq_long_iff.mp found]
    simp [Write.leaves]
  · rw [load_eq_ok_iff]
    constructor
    · rintro ⟨-, found, is_long⟩
      cases value with
      | long number => exact ⟨number, rfl, remembers.eq_long_iff.mp found⟩
      | _ => cases is_long
    · rintro ⟨number, rfl, last⟩
      have found := remembers.eq_long_iff.mpr last
      exact ⟨fits found, found, rfl⟩

end Frame

/-! ## Runs with their records -/

/-- What the next instruction of a run is about to write to the locals. -/
def State.write? (state : State) : Option Write :=
  state.current.instruction?.bind state.current.frame.write?

/-- The records of all activations after a step, the innermost first.  An activation that is entered
begins with its arguments, and one that is left is forgotten. -/
def State.recorded (before : State) : Progress → List (List Write) → List (List Write)
  | .running after, record :: records =>
      if after.callers.length = before.callers.length then
        (before.write?.toList ++ record) :: records
      else if after.callers.length < before.callers.length then records
      else (layOutWrites 0 before.pending).reverse :: record :: records
  | _, _ => []

/-- The states that a run goes through, each with the records of its activations. -/
def chronicle (setup : Setup) :
    Nat → Progress → List (List Write) → List (State × List (List Write))
  | _, .ended _ _, _ => []
  | 0, .running state, records => [(state, records)]
  | fuel + 1, .running state, records =>
      (state, records) ::
        chronicle setup fuel (step setup state) (state.recorded (step setup state) records)

theorem map_fst_chronicle (setup : Setup) (fuel : Nat) (progress : Progress)
    (records : List (List Write)) :
    (chronicle setup fuel progress records).map Prod.fst = states setup fuel progress := by
  induction fuel generalizing progress records with
  | zero => cases progress <;> rfl
  | succ fuel ih =>
      cases progress with
      | ended world outcome => rfl
      | running state => rw [chronicle, List.map_cons, ih, states]

/-- The locals of every activation hold what its record says. -/
def State.Remembers (records : List (List Write)) (state : State) : Prop :=
  List.Forall₂ (fun activation record => activation.frame.Remembers record)
    (state.current :: state.callers) records

section Runs

variable {setup : Setup} {world : World} {callers : List Activation}
  {records : List (List Write)}

theorem activate_remembers {method : Method} {arguments : List Value} {state : State}
    (entered : activate setup world callers method arguments = .running state) :
    state.callers = callers ∧
      state.current.frame.Remembers (layOutWrites 0 arguments).reverse := by
  have laid := (Frame.remembers_empty method.maxStack method.maxLocals.toNat).layOut 0
    arguments
  unfold activate at entered
  split at entered
  · cases entered
  · split at entered
    · cases entered
    · split at entered
      · cases entered
      · rename_i frame found
        cases entered
        exact ⟨rfl, by simpa using laid frame found⟩

/-- The frame of a caller that goes on has the locals with which it waited. -/
theorem resume_remembers {value : Option Value} {state : State}
    (remembers : List.Forall₂ (fun activation record => activation.frame.Remembers record) callers
      records)
    (resumed : resume world value callers = .running state) :
    state.callers.length < callers.length ∧ state.Remembers records := by
  cases remembers with
  | nil => cases resumed
  | @cons caller record rest records current waiting =>
      have kept {frame : Frame} (locals_eq : frame.locals = caller.frame.locals) :
          frame.Remembers record :=
        current.wrote none locals_eq
      cases value with
      | none =>
          cases resumed
          exact ⟨Nat.lt_succ_self _, .cons (kept rfl) waiting⟩
      | some value =>
          simp only [resume] at resumed
          split at resumed
          · cases resumed
          · rename_i frame pushed
            cases resumed
            refine ⟨Nat.lt_succ_self _, .cons (kept ?_) waiting⟩
            unfold Frame.push at pushed
            split at pushed
            · cases pushed
            · cases pushed
              rfl

/-- The arguments that a call hands over are those that its instruction takes from the operands. -/
theorem pending_of_call {body : Body} {frame rest : Frame} {index : Nat} {callee : Method}
    {arguments : List Value} {instruction : Instruction}
    (found : body.instruction? index = some instruction)
    (performed : (perform setup.file world frame instruction).2 =
      .ok (.call rest callee arguments)) :
    (State.mk world ⟨body, frame, index⟩ callers).pending = arguments := by
  obtain ⟨method, rfl, timeless, called⟩ := suits_perform performed
  simp only [State.pending, Activation.instruction?, found]
  simp only [perform] at performed
  split at performed
  · cases performed
  · rename_i popped middle popped_eq
    rw [popped_eq]
    have not_clock : ¬(method.owner = Trace.systemClass ∧ method.name = "currentTimeMillis") := by
      simpa [Instruction.readsClock] using timeless
    simp only [invoke, if_neg not_clock] at performed
    split at performed
    · rw [called] at performed
      cases performed
      rfl
    · cases performed

/-- A step writes to the locals what its instruction was about to write. -/
theorem step_remembers {state after : State} (balanced : state.Balanced)
    (remembers : state.Remembers records) (stepped : step setup state = .running after) :
    after.Remembers (state.recorded (.running after) records) := by
  obtain ⟨world, ⟨body, frame, index⟩, callers⟩ := state
  have current_balanced := (List.forall_mem_cons.mp balanced).1
  cases remembers with
  | @cons _ record _ records current waiting =>
      simp only [step] at stepped
      cases found : body.instruction? index with
      | none =>
          rw [found] at stepped
          cases stepped
      | some instruction =>
          simp only [found] at stepped
          have write_eq : (State.mk world ⟨body, frame, index⟩ callers).write? =
              frame.write? instruction := by
            simp [State.write?, Activation.instruction?, found]
          have accords := perform_accords setup.file world current_balanced instruction
          cases performed : perform setup.file world frame instruction with
          | mk later outcome =>
              rw [performed] at accords
              simp only [performed] at stepped
              rcases outcome with
                (_ | _) | (next | ⟨next, target⟩ | ⟨next, callee, arguments⟩ | value)
              · cases stepped
              · cases stepped
              · cases stepped
                simp only [State.recorded, if_true, write_eq]
                exact .cons (current.wrote _ (accords _ rfl).wrote) waiting
              · simp only at stepped
                split at stepped
                · cases stepped
                · cases stepped
                  simp only [State.recorded, if_true, write_eq]
                  exact .cons (current.wrote _ (accords _ rfl).wrote) waiting
              · have performed_call := congrArg Prod.snd performed
                obtain ⟨callers_eq, entered⟩ := activate_remembers stepped
                obtain ⟨method, rfl, -, -⟩ := suits_perform performed_call
                have left : next.Remembers record := current.wrote none (accords _ rfl).wrote
                simp only [State.recorded, callers_eq, pending_of_call found performed_call]
                rw [if_neg (by simp), if_neg (by simp), State.Remembers, callers_eq]
                exact .cons entered (.cons left waiting)
              · obtain ⟨shorter, remembers⟩ := resume_remembers waiting stepped
                change after.callers.length < callers.length at shorter
                simp only [State.recorded]
                rw [if_neg (Nat.ne_of_lt shorter), if_pos shorter]
                exact remembers

/-- All along a run, the locals of all activations hold what their records say. -/
theorem chronicle_remembers (fuel : Nat) {progress : Progress}
    (begins : ∀ state, progress = .running state → state.Balanced ∧ state.Remembers records) :
    ∀ moment ∈ chronicle setup fuel progress records, moment.1.Remembers moment.2 := by
  induction fuel generalizing progress records with
  | zero =>
      cases progress with
      | ended world outcome => simp [chronicle]
      | running state => simpa [chronicle] using (begins state rfl).2
  | succ fuel ih =>
      cases progress with
      | ended world outcome => simp [chronicle]
      | running state =>
          obtain ⟨balanced, remembers⟩ := begins state rfl
          refine List.forall_mem_cons.mpr ⟨remembers, ih fun after stepped => ⟨?_, ?_⟩⟩
          · have kept := step_balanced setup balanced
            rw [stepped] at kept
            exact kept
          · rw [stepped]
            exact step_remembers balanced remembers stepped

end Runs

namespace Session

/-- The states that a call goes through, each with the records of its activations. -/
def chronicle (session : Session) (name : String) (arguments : List Value) :
    List (State × List (List Write)) :=
  match session.setup.file.method? name with
  | none => []
  | some method =>
      Machine.chronicle session.setup session.fuel (session.enter method arguments)
        [(layOutWrites 0 (session.handOver method arguments).values).reverse]

/-- Whatever method of a class is called, with whatever arguments, limits and world: in each state
of the run, every activation reads a `long` from a local if and only if the last write to this local
stored it there, whatever was written to the local after it. -/
theorem invoke_keepsLongs (session : Session) (name : String) (arguments : List Value) :
    (session.chronicle name arguments).map Prod.fst = session.visited name arguments ∧
      ∀ moment ∈ session.chronicle name arguments,
        List.Forall₂ (fun activation record => activation.frame.KeepsLongs record)
          (moment.1.current :: moment.1.callers) moment.2 := by
  cases found : session.setup.file.method? name with
  | none => simp [chronicle, visited, begin, found]
  | some method =>
      have begun := begin_of_found found arguments
      simp only [chronicle, found, visited, begun, Option.map_some, Option.getD_some]
      refine ⟨map_fst_chronicle .., fun moment member => ?_⟩
      have remembers := chronicle_remembers session.fuel (fun state entered => ?_) moment member
      · exact remembers.imp fun _ _ remembers => remembers.keepsLongs
      · have balanced := begin_balanced begun
        rw [entered] at balanced
        obtain ⟨callers_eq, remembers⟩ := activate_remembers entered
        refine ⟨balanced, ?_⟩
        rw [State.Remembers, callers_eq]
        exact .cons remembers .nil

/-- A method that overwrites the second half of a `long`, and one that it calls and that overlaps
two of them. -/
def overlapFile : ClassFile :=
  { name := "Overlap"
    methods :=
      [{ declaration :=
          { owner := "Overlap", name := "both", type := some ⟨[], some .long⟩
            access := ⟨0x0008⟩, kind := .function, annotations := .empty }
         instructions :=
          [.lconst 7, .store .long 0, .iconst 5, .store .int 1,
            .invoke .direct ⟨"Overlap", "shift", ⟨[], none⟩⟩, .load .long 0, .ret (some .long)]
         maxStack := 2
         maxLocals := 2 },
        { declaration :=
          { owner := "Overlap", name := "shift", type := some ⟨[], none⟩
            access := ⟨0x0008⟩, kind := .function, annotations := .empty }
          instructions :=
          [.lconst 3, .store .long 0, .lconst 4, .store .long 1, .ret none]
          maxStack := 2
          maxLocals := 3 }] }

theorem invoke_keepsLongs_overlapFile :
    ∃ moment ∈ (fresh overlapFile 8 20 (.steady 0 0) .reliable).chronicle "both" [],
      moment.2 = [[⟨1, .long 4⟩, ⟨0, .long 3⟩], [⟨1, .int 5⟩, ⟨0, .long 7⟩]] ∧
      List.Forall₂ (fun activation record => activation.frame.KeepsLongs record)
        (moment.1.current :: moment.1.callers) moment.2 := by
  have reached : (((fresh overlapFile 8 20 (.steady 0 0) .reliable).chronicle "both" [])[9]?).any
      (fun moment => moment.2 =
        [[⟨1, .long 4⟩, ⟨0, .long 3⟩], [⟨1, .int 5⟩, ⟨0, .long 7⟩]]) = true := by
    decide +kernel
  obtain ⟨moment, moment_eq, holds⟩ := (Option.any_eq_true ..).mp reached
  have member := List.mem_of_getElem? moment_eq
  exact ⟨moment, member, of_decide_eq_true holds,
    (invoke_keepsLongs (fresh overlapFile 8 20 (.steady 0 0) .reliable) "both" []).2 moment member⟩

/-- Behind a `long` there may be a local that is set, and the `long` is read all the same. -/
theorem second_half_overwritten :
    (¬∀ state ∈ (fresh overlapFile 8 20 (.steady 0 0) .reliable).visited "both" [],
      ∀ slot value, state.current.frame.locals[slot]? = some (.long value) →
        state.current.frame.locals[slot + 1]? = some .top) ∧
    ((fresh overlapFile 8 20 (.steady 0 0) .reliable).invoke "both" []).2 =
      .ok (some (.long 7)) := by
  refine ⟨fun paired => ?_, by decide +kernel⟩
  have reached : (((fresh overlapFile 8 20 (.steady 0 0) .reliable).visited "both" [])[4]?).any
      (fun state => state.current.frame.locals = #[.long 7, .int 5]) = true := by
    decide +kernel
  obtain ⟨state, state_eq, holds⟩ := (Option.any_eq_true ..).mp reached
  have locals_eq := of_decide_eq_true holds
  have unset := paired state (List.mem_of_getElem? state_eq) 0 7 (by simp [locals_eq])
  simp [locals_eq] at unset

end Session
end Machine
end MethodTracing
