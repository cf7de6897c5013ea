import Mathlib
import Garbling.Proofs.Inspection

/-!
# Restarts change nothing

A plain machine is driven through a program in slices of any sizes. Between two slices values
may be opened at any time, and a slice that asks for a restart is answered by going back one
instruction and opening all values. The machine comes to the same end as the reference
interpreter, which knows neither slices nor restarts, or to no end if there is none.
-/

namespace Garbling

namespace Reference

/-- The interpreter executes some instructions and comes to an end: the end of the program, or
an instruction that fails. -/
inductive Ends (program : Program) :
    Reference → (executed : Nat) → Except ExecutionError Unit → Reference → Prop
  | finished {reference : Reference}
      (past : program.instructions[reference.counter]? = none) :
      Ends program reference 0 (.ok ()) reference
  | failed {reference : Reference} {instruction : Instruction} {error : ExecutionError}
      (next : program.instructions[reference.counter]? = some instruction)
      (failure : reference.advance.step instruction = .error error) :
      Ends program reference 0 (.error error) reference.advance
  | step {before middle after : Reference} {instruction : Instruction} {executed : Nat}
      {outcome : Except ExecutionError Unit}
      (next : program.instructions[before.counter]? = some instruction)
      (success : before.advance.step instruction = .ok middle)
      (others : Ends program middle executed outcome after) :
      Ends program before (executed + 1) outcome after

variable {program : Program} {before middle after : Reference} {path : List Instruction}
  {executed : Nat} {outcome : Except ExecutionError Unit}

/-- An end that is reached after some instructions is reached before them. -/
theorem Executes.ends (executes : Executes program before path middle)
    (ends : Ends program middle executed outcome after) :
    Ends program before (executed + path.length) outcome after := by
  induction executes with
  | refl => exact ends
  | step next success others inductionHypothesis => exact .step next success (inductionHypothesis ends)

/-- An end that is reached before some instructions is reached after them. -/
theorem Ends.after_executes (ends : Ends program before executed outcome after)
    (executes : Executes program before path middle) :
    ∃ left, executed = left + path.length ∧ Ends program middle left outcome after := by
  induction executes generalizing executed with
  | refl => exact ⟨executed, rfl, ends⟩
  | step next success others inductionHypothesis =>
      cases ends with
      | finished past => cases past.symm.trans next
      | failed found failure =>
          cases found.symm.trans next
          cases failure.symm.trans success
      | step found succeeds ends =>
          cases found.symm.trans next
          cases succeeds.symm.trans success
          obtain ⟨left, rfl, rest⟩ := inductionHypothesis ends
          exact ⟨left, rfl, rest⟩

/-- The interpreter has come to its end when no instruction is left. -/
theorem Ends.of_finished (ends : Ends program before executed outcome after)
    (past : program.instructions[before.counter]? = none) :
    outcome = .ok () ∧ after = before := by
  cases ends with
  | finished => exact ⟨rfl, rfl⟩
  | failed next | step next => cases past.symm.trans next

/-- The interpreter has come to its end when the next instruction fails. -/
theorem Ends.of_failed {instruction : Instruction} {error : ExecutionError}
    (ends : Ends program before executed outcome after)
    (next : program.instructions[before.counter]? = some instruction)
    (failure : before.advance.step instruction = .error error) :
    outcome = .error error ∧ after = before.advance := by
  cases ends with
  | finished past => cases past.symm.trans next
  | failed found fails =>
      cases found.symm.trans next
      cases fails.symm.trans failure
      exact ⟨rfl, rfl⟩
  | step found success =>
      cases found.symm.trans next
      cases success.symm.trans failure

end Reference

namespace Machine

variable {machine : Machine Bool Plain} {instruction : Instruction} {error : ExecutionError}

/-- A plain machine attempts an instruction at which the reference interpreter fails. Either it
fails as well, or it only moves its program counter, and then a value is not open. -/
theorem attempt_of_reference_error (sound : machine.processor.Sound)
    (failure : machine.reference.advance.step instruction = .error error) :
    attempt (Plain.backend true) instruction machine =
        (.error (.execution error), { machine with processor := machine.processor.advance }) ∨
      (attempt (Plain.backend true) instruction machine =
          (.ok .restartRequested, { machine with processor := machine.processor.advance }) ∧
        machine.processor.waiting = 1) := by
  have advanced : Processor.Sound machine.processor.advance := sound.jump _
  rcases @lacks_of_reference { machine with processor := machine.processor.advance } instruction
      error advanced failure with lacks | completes
  · exact .inl lacks.attempt_fails
  · exact .inr (attempt_of_waiting sound completes)

/-- What a slice comes to if it is a slice of a plain machine which executes the given
instructions and gets as far as the given state of the reference interpreter. -/
def Reports (program : Program) (before : Machine Bool Plain) (budget : Nat)
    (path : List Instruction) (middle : Reference) :
    Except Error Break × Machine Bool Plain → Prop
  | (.ok .done, after) =>
      after.reference = middle ∧ program.instructions[middle.counter]? = none
  | (.ok .time, after) =>
      after.processor.Sound ∧ after.reference = middle ∧ path.length = budget
  | (.ok .restart, after) => ∃ resumed : Machine Bool Plain, resumed.processor.Sound ∧
      resumed.reference = middle ∧
      after = { resumed with processor := resumed.processor.advance } ∧
      (path = [] → before.processor.waiting = 1)
  | (.error fault, after) => ∃ instruction error, fault = .execution error ∧
      program.instructions[middle.counter]? = some instruction ∧
      middle.advance.step instruction = .error error ∧ after.reference = middle.advance

/-- A slice goes on after one more instruction. -/
theorem Reports.cons {program : Program} {next : Machine Bool Plain} {budget : Nat}
    {path : List Instruction} {middle : Reference} {result : Except Error Break × Machine Bool Plain}
    (reports : Reports program next budget path middle result) (instruction : Instruction)
    (before : Machine Bool Plain) :
    Reports program before (budget + 1) (instruction :: path) middle result := by
  match result, reports with
  | (.ok .done, after), reports => exact reports
  | (.ok .time, after), ⟨sound, same, full⟩ => exact ⟨sound, same, congrArg (· + 1) full⟩
  | (.ok .restart, after), ⟨resumed, sound, same, moved, _⟩ =>
      exact ⟨resumed, sound, same, moved, nofun⟩
  | (.error fault, after), reports => exact reports

/-- A slice of a plain machine, as the reference interpreter sees it. -/
theorem execute_reports (program : Program) (sound : machine.processor.Sound) (budget : Nat) :
    ∃ path middle, Reference.Executes program machine.reference path middle ∧
      Reports program machine budget path middle
        (execute (Plain.backend true) program budget machine) := by
  induction budget generalizing machine with
  | zero =>
      refine ⟨[], machine.reference, .refl, ?_⟩
      unfold execute
      cases next : program.instructions[machine.processor.counter]? with
      | none => exact ⟨rfl, next⟩
      | some instruction => exact ⟨sound, rfl, rfl⟩
  | succ budget inductionHypothesis =>
      unfold execute
      cases next : program.instructions[machine.processor.counter]? with
      | none => exact ⟨[], machine.reference, .refl, rfl, next⟩
      | some instruction =>
          cases outcome : machine.reference.advance.step instruction with
          | ok after =>
              rcases attempt_of_reference sound outcome with
                ⟨resumed, attempted, resumedSound, rfl⟩ | ⟨attempted, waiting⟩
              · obtain ⟨path, middle, executes, reports⟩ := inductionHypothesis resumedSound
                refine ⟨instruction :: path, middle, .step next outcome executes, ?_⟩
                simp only [attempted]
                exact reports.cons instruction machine
              · simp only [attempted]
                exact ⟨[], machine.reference, .refl, machine, sound, rfl, rfl, fun _ => waiting⟩
          | error error =>
              refine ⟨[], machine.reference, .refl, ?_⟩
              rcases attempt_of_reference_error sound outcome with attempted | ⟨attempted, waiting⟩
              · simp only [attempted]
                exact ⟨instruction, error, rfl, next, outcome, rfl⟩
              · simp only [attempted]
                exact ⟨machine, sound, rfl, rfl, fun _ => waiting⟩

/-- Opens all values, any number of times. -/
def openAll (times : Nat) (machine : Machine Bool Plain) : Machine Bool Plain :=
  { machine with processor := (fun processor => processor.takeOpenings.2)^[times] machine.processor }

/-- Goes back one instruction and opens all values. -/
def resume (machine : Machine Bool Plain) : Machine Bool Plain :=
  { machine with processor := machine.processor.rewind.takeOpenings.2 }

/-- Executes at most `limit` slices. They are numbered from `index` on; the number of a slice
gives its budget, and how often all values are opened after it beyond what a restart asks for.
There is no result if the machine has not come to an end. -/
def drive (program : Program) (budgets : Nat → ℕ+) (extras : Nat → Nat) :
    (limit index : Nat) → Machine Bool Plain → Option (Except Error Unit × Machine Bool Plain)
  | 0, _, _ => none
  | limit + 1, index, machine =>
      match execute (Plain.backend true) program (budgets index) machine with
      | (.error error, machine) => some (.error error, machine)
      | (.ok .done, machine) => some (.ok (), machine)
      | (.ok .time, machine) =>
          drive program budgets extras limit (index + 1) (machine.openAll (extras index))
      | (.ok .restart, machine) =>
          drive program budgets extras limit (index + 1) (machine.resume.openAll (extras index))

/-- Opening values changes nothing that the reference interpreter knows. -/
theorem openAll_reference (times : Nat) (sound : machine.processor.Sound) :
    (machine.openAll times).processor.Sound ∧ (machine.openAll times).reference = machine.reference ∧
      (machine.openAll times).processor.waiting ≤ machine.processor.waiting := by
  induction times generalizing machine with
  | zero => exact ⟨sound, rfl, Nat.le_refl _⟩
  | succ times inductionHypothesis =>
      obtain ⟨soundAfter, same, less⟩ :=
        @inductionHypothesis { machine with processor := machine.processor.opened } sound.opened
      refine ⟨soundAfter, same, less.trans ?_⟩
      rw [Processor.waiting_opened]
      exact Nat.zero_le _

/-- What a restart leaves is undone by going back. -/
theorem resume_advance (resumed : Machine Bool Plain) :
    resume { resumed with processor := resumed.processor.advance } =
      { resumed with processor := resumed.processor.opened } := rfl

variable {program : Program} {budgets : Nat → ℕ+} {extras : Nat → Nat} {executed : Nat}
  {outcome : Except ExecutionError Unit} {final : Reference}

/-- Where the reference interpreter comes to an end, a machine that is driven comes to the same
end. The number of instructions left, counted together with the chance of a restart, decreases
from slice to slice. -/
theorem drive_of_ends (sound : machine.processor.Sound)
    (ends : Reference.Ends program machine.reference executed outcome final) (index : Nat) :
    ∃ limit after, drive program budgets extras limit index machine =
      some (outcome.mapError Error.execution, after) ∧ after.reference = final := by
  induction measure : 2 * executed + machine.processor.waiting using Nat.strong_induction_on
    generalizing machine executed index with
  | _ measure inductionHypothesis =>
      subst measure
      obtain ⟨path, middle, executes, reports⟩ := execute_reports program sound (budgets index)
      obtain ⟨left, rfl, rest⟩ := ends.after_executes executes
      generalize slice : execute (Plain.backend true) program (budgets index) machine = result
        at reports
      match result, reports with
      | (.ok .done, after), ⟨same, past⟩ =>
          obtain ⟨rfl, rfl⟩ := rest.of_finished past
          exact ⟨1, after, by simp only [drive, slice]; rfl, same⟩
      | (.error fault, after), ⟨instruction, error, isError, next, failure, same⟩ =>
          obtain ⟨rfl, rfl⟩ := rest.of_failed next failure
          subst isError
          exact ⟨1, after, by simp only [drive, slice]; rfl, same⟩
      | (.ok .time, after), ⟨afterSound, same, full⟩ =>
          obtain ⟨openSound, openSame, less⟩ := openAll_reference (extras index) afterSound
          have positive := (budgets index).pos
          have bound := (after.openAll (extras index)).processor.waiting_le_one
          rw [← same, ← openSame] at rest
          obtain ⟨limit, last, driven, finalSame⟩ :=
            inductionHypothesis _ (by omega) openSound rest (index + 1) rfl
          exact ⟨limit + 1, last, by simp only [drive, slice, driven], finalSame⟩
      | (.ok .restart, after), ⟨resumed, resumedSound, same, moved, waits⟩ =>
          subst moved
          obtain ⟨openSound, openSame, less⟩ := @openAll_reference
            { resumed with processor := resumed.processor.opened } (extras index) resumedSound.opened
          have fewer :=
            (Nat.add_le_add_left less (2 * left)).trans_lt (Processor.rank_of_restart waits left)
          have here : Reference.Ends program
              (openAll (extras index) { resumed with processor := resumed.processor.opened }).reference
              left outcome final := by
            rw [openSame]
            exact same ▸ rest
          obtain ⟨limit, last, driven, finalSame⟩ :=
            inductionHypothesis _ (Nat.add_comm left _ ▸ fewer) openSound here (index + 1) rfl
          exact ⟨limit + 1, last, by simp only [drive, slice, resume_advance, driven], finalSame⟩

/-- A machine that is driven comes to no other end than the reference interpreter. -/
theorem ends_of_drive (sound : machine.processor.Sound) {limit index : Nat}
    {result : Except Error Unit} {after : Machine Bool Plain}
    (driven : drive program budgets extras limit index machine = some (result, after)) :
    ∃ executed outcome, result = Except.mapError Error.execution outcome ∧
      Reference.Ends program machine.reference executed outcome after.reference := by
  induction limit generalizing machine index with
  | zero => cases driven
  | succ limit inductionHypothesis =>
      obtain ⟨path, middle, executes, reports⟩ := execute_reports program sound (budgets index)
      generalize slice : execute (Plain.backend true) program (budgets index) machine = outcome
        at reports
      simp only [drive, slice] at driven
      match outcome, reports with
      | (.ok .done, last), ⟨same, past⟩ =>
          cases driven
          rw [same]
          exact ⟨_, .ok (), rfl, executes.ends (.finished past)⟩
      | (.error fault, last), ⟨instruction, error, isError, next, failure, same⟩ =>
          cases driven
          rw [same]
          exact ⟨_, .error error, by rw [isError]; rfl, executes.ends (.failed next failure)⟩
      | (.ok .time, last), ⟨lastSound, same, _⟩ =>
          obtain ⟨openSound, openSame, _⟩ := openAll_reference (extras index) lastSound
          obtain ⟨executed, outcome, rfl, ends⟩ := inductionHypothesis openSound driven
          rw [openSame, same] at ends
          exact ⟨_, outcome, rfl, executes.ends ends⟩
      | (.ok .restart, last), ⟨resumed, resumedSound, same, moved, _⟩ =>
          subst moved
          simp only [resume_advance] at driven
          obtain ⟨openSound, openSame, _⟩ := @openAll_reference
            { resumed with processor := resumed.processor.opened } (extras index) resumedSound.opened
          obtain ⟨executed, outcome, rfl, ends⟩ := inductionHypothesis openSound driven
          rw [openSame] at ends
          exact ⟨_, outcome, rfl, executes.ends (same ▸ ends)⟩

/-- A machine that is driven through a program comes to no end exactly if the reference
interpreter comes to none; otherwise it comes to the same end and leaves the same state. An
instruction that asks for a restart changes nothing but the program counter, and going back
restores that. -/
theorem drive_transparent (program : Program) (garblerInputs evaluatorInputs : List Bool)
    (budgets : Nat → ℕ+) (extras : Nat → Nat) :
    ((∀ limit, drive program budgets extras limit 0
        (.start program { garblerInputs, evaluatorInputs }) = none) ↔
      ∀ executed outcome final, ¬Reference.Ends program
        (.start program garblerInputs evaluatorInputs) executed outcome final) ∧
    (∀ limit result after, drive program budgets extras limit 0
        (.start program { garblerInputs, evaluatorInputs }) = some (result, after) →
      ∃ executed outcome, result = Except.mapError Error.execution outcome ∧
        Reference.Ends program (.start program garblerInputs evaluatorInputs) executed outcome
          after.reference) ∧
    ∀ (wire state : Type) (backend : Backend wire state) (instruction : Instruction)
      (before after : Machine wire state), before.processor.taint = {} →
      attempt backend instruction before = (.ok .restartRequested, after) →
      after = { before with processor := before.processor.advance } ∧
        { after with processor := after.processor.rewind } = before := by
  have sound : (start program { garblerInputs, evaluatorInputs : Plain } :
      Machine Bool Plain).processor.Sound := .start program
  have same := reference_start program garblerInputs evaluatorInputs
  refine ⟨⟨fun endless executed outcome final ends => ?_, fun endless limit => ?_⟩,
    fun limit result after driven => ?_,
    fun wire state backend instruction before after lowered attempted => ?_⟩
  · rw [← same] at ends
    obtain ⟨limit, after, driven, _⟩ := drive_of_ends sound ends 0
    cases (endless limit).symm.trans driven
  · by_contra driven
    obtain ⟨⟨result, after⟩, driven⟩ := Option.ne_none_iff_exists'.mp driven
    obtain ⟨executed, outcome, _, ends⟩ := ends_of_drive sound driven
    rw [same] at ends
    exact endless executed outcome _ ends
  · rw [← same]
    exact ends_of_drive sound driven
  · obtain ⟨rfl, _⟩ := restart_of_attempt lowered attempted
    exact ⟨rfl, rfl⟩

end Machine

end Garbling
