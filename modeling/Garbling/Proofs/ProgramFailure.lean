import Mathlib
import Garbling.Proofs.Duet
import Garbling.Proofs.Inspection

/-!
# Programs that fail

The reference interpreter executes some instructions and fails at the next one. A plain machine
comes to this instruction slice by slice. Then it lacks the same as the interpreter, unless it has
to wait first. What it lacks the garbler lacks as well, except that the garbler never lacks inputs
of the evaluator.
-/

namespace Garbling

namespace Reference

/-- The interpreter executes the given instructions and fails at the next one. -/
structure Fails (program : Program) (before : Reference) (path : List Instruction)
    (last : Instruction) (error : ExecutionError) (reached : Reference) : Prop where
  executes : Executes program before path reached
  next : program.instructions[reached.counter]? = some last
  failure : reached.advance.step last = .error error

/-- The clear register that an instruction gets as far as to read. A bit is read before the place
where it is to be stored. -/
def consults? (reference : Reference) : Instruction → Option Register
  | .store src _ offset => if (reference.read src).isOk then some offset else none
  | instruction => instruction.reads?

/-- None of the instructions on a path needs a value that was revealed before it, and the last one,
which fails, does not get as far as to read one. -/
structure NeverWaits (before : Finset Register) (path : List Instruction) (last : Instruction)
    (reached : Reference) : Prop where
  executed : Instruction.NeverWaits before path
  failing : ∀ register, reached.consults? last = some register →
    register ∉ Instruction.allPending before path

end Reference

namespace Machine

variable {machine resumed : Machine Bool Plain} {program : Program} {instruction last : Instruction}
  {path executed : List Instruction} {error : ExecutionError} {reached : Reference} {budget : Nat}

/-- An instruction that is attempted without failing reads all that it needs. -/
theorem consults?_of_attempt {checkpoint : Checkpoint} {after : Machine Bool Plain}
    (attempted : attempt (Plain.backend true) instruction machine = (.ok checkpoint, after)) :
    machine.reference.consults? instruction = instruction.reads? := by
  obtain ⟨middle, completes, _⟩ := attempt_eq_ok_iff.mp attempted
  cases instruction with
  | store src base offset =>
      obtain ⟨value, _, _, success, _⟩ := completes
      have found : machine.reference.read src = .ok value := by
        rw [read_reference]
        exact success
      simp only [Reference.consults?, found, Except.isOk, Except.toBool, if_true,
        Instruction.reads?]
  | _ => rfl

/-- Where the reference interpreter fails after some instructions, a slice of a plain machine leaves
some of them or waits before the failing one, or it gets through all of them and lacks something for
the failing one. -/
theorem slice_of_fails (sound : machine.processor.Sound)
    (fails : Reference.Fails program machine.reference path last error reached) (budget : Nat) :
    (∃ executed ending after,
      Slice (Plain.backend true) program budget machine executed ending after ∧
        Leaves program reached machine budget path executed ending after) ∨
    ∃ after, path.length < budget ∧
      Slice (Plain.backend true) program path.length machine path .time after ∧
        program.instructions[after.processor.counter]? = some last ∧
          Lacks { after with processor := after.processor.advance } last error := by
  obtain ⟨executes, next, failure⟩ := fails
  obtain left | ⟨after, fits, passes, afterSound, same, first⟩ :=
    slice_of_executes sound executes budget
  · exact .inl left
  · subst same
    have whole := passes (.time next : Slice (Plain.backend true) program 0 after _ _ _)
    rw [List.append_nil, Nat.add_zero] at whole
    obtain ⟨more, rfl⟩ := Nat.exists_eq_add_of_le fits
    cases more with
    | zero =>
        exact .inl ⟨path, .time, after, whole, .time afterSound (by simp) .refl rfl⟩
    | succ more =>
        have advanced : Processor.Sound after.processor.advance := afterSound.jump _
        rcases @lacks_of_reference { after with processor := after.processor.advance } last error
          advanced failure with lacks | completes
        · exact .inr ⟨after, by omega, whole, next, lacks⟩
        · obtain ⟨attempted, waiting⟩ := attempt_of_waiting afterSound completes
          have waits : Slice (Plain.backend true) program (path.length + (more + 1)) machine
              (path ++ []) .restart _ := passes (.restart next attempted)
          rw [List.append_nil] at waits
          refine .inl ⟨path, .restart, _, waits, .restart afterSound (by simp) .refl next attempted
            fun none => ?_⟩
          rw [← first none]
          exact waiting

/-- A slice does not ask for a restart if no instruction up to the failing one needs a value that
was revealed before it. -/
theorem Leaves.not_restart {registers : Finset Register} {after : Machine Bool Plain}
    {ending : Break}
    (leaves : Leaves program reached machine budget path executed ending after)
    (slice : Slice (Plain.backend true) program budget machine executed ending after)
    (lowered : machine.processor.taint = {}) (pending : machine.processor.Pending registers)
    (next : program.instructions[reached.counter]? = some last)
    (never : Reference.NeverWaits registers path last reached) : ending ≠ .restart := by
  rintro rfl
  obtain _ | ⟨sound, rfl, executes, found, attempted, _⟩ := leaves
  obtain ⟨still, _⟩ := slice.pending lowered pending
  obtain ⟨_, waits⟩ := restart_of_attempt sound.lowered attempted
  obtain ⟨register, member, reads⟩ := waits.mem still
  cases executes with
  | refl =>
      cases found.symm.trans next
      rw [← consults?_of_attempt attempted] at reads
      rw [List.append_nil] at never
      exact never.failing register reads member
  | step head _ _ =>
      cases found.symm.trans head
      exact never.executed.of_append.1 register reads member

end Machine

variable {suite : Suite} {offset : Offset}

theorem GarblingState.runFrom_garblerInput_of_nil {state : GarblingState suite}
    (missing : state.inputs = []) :
    (backend suite offset).garblerInput.runFrom state =
      (.error (.execution .missingGarblerInput), state) := by
  simp only [backend, Action.runFrom_get_bind, missing]
  rfl

/-- The garbler fails for the same reason as the plain execution, unless that is a lack of inputs of
the evaluator. -/
theorem Trio.garbler_fails {program : Program} {plain plainAfter : Machine Bool Plain}
    {tracked : Machine (Bool × Label) (Plain × GarblingState suite)}
    {garbler : Machine Label (GarblingState suite)} {evaluator : Machine Label EvaluationState}
    (trio : Trio suite offset plain tracked garbler evaluator) {path : List Instruction}
    {budget : Nat} (fits : path.length < budget)
    (slice : Machine.Slice (Plain.backend true) program path.length plain path .time plainAfter)
    {last : Instruction} {error : ExecutionError}
    (next : program.instructions[plainAfter.processor.counter]? = some last)
    (lacks : Machine.Lacks { plainAfter with processor := plainAfter.processor.advance } last error)
    (other : error ≠ .missingEvaluatorInput) :
    ∃ machine, Machine.execute (GarblingState.backend suite offset) program budget garbler =
      (.error (.execution error), machine) := by
  obtain ⟨trackedAfter, trackedSlice, plainRelated⟩ :=
    (Tracked.ofPlain suite offset).slice trio.plain slice trivial
  obtain ⟨garblerAfter, garblerSlice, garblingRelated⟩ :=
    (Tracked.toGarbling suite offset).slice trio.garbling trackedSlice trivial
  rw [plainRelated.processor.counter, garblingRelated.processor.counter] at next
  let garblerNext : Machine Label (GarblingState suite) :=
    { garblerAfter with processor := garblerAfter.processor.advance }
  have fails : (Machine.step (GarblingState.backend suite offset) last).runFrom garblerNext =
      (.error (.execution error), garblerNext) := by
    cases lacks with
    | operand missing =>
        have tracked := plainRelated.advance.inspect missing
        exact Machine.step_of_inspect (garblingRelated.advance.inspect tracked)
    | garblerInput missing =>
        have inputs : garblerAfter.backend.inputs = [] := by
          rw [← garblingRelated.backend, plainRelated.backend.2]
          exact missing
        exact Action.runFrom_bind_of_error
          (Machine.runFrom_perform_of_error (GarblingState.runFrom_garblerInput_of_nil inputs))
    | evaluatorInput missing => exact absurd rfl other
  obtain ⟨more, rfl⟩ := Nat.exists_eq_add_of_lt fits
  refine ⟨garblerNext, ?_⟩
  rw [Nat.add_assoc, garblerSlice.execute_add]
  exact Machine.execute_of_attempt_error next (Machine.attempt_of_step_error fails) more

end Garbling
