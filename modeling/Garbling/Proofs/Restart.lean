import Mathlib
import Garbling.Proofs.Reference

/-!
# Restarts of a plain machine

A plain machine executes in slices what the reference interpreter executes in one go. A slice
that asks for a restart has executed everything up to an instruction which waits for a value,
and opening the values lets the next slice execute that instruction. So the number of
instructions that are left, counted together with the chance of a restart, decreases from
slice to slice.
-/

namespace Garbling

namespace Processor

variable {wire : Type}

/-- One if there are values that are not open, so that the next instruction may wait. -/
def waiting (processor : Processor wire) : Nat :=
  if processor.log.opened < processor.log.values.size then 1 else 0

theorem waiting_le_one (processor : Processor wire) : processor.waiting ≤ 1 := by
  unfold waiting
  split <;> omega

/-- The processor when all its values have been opened. -/
def opened (processor : Processor wire) : Processor wire :=
  { processor with log.opened := processor.log.values.size }

theorem Sound.opened {processor : Processor wire} (sound : processor.Sound) :
    processor.opened.Sound :=
  ⟨sound.lowered, Nat.le_refl _, sound.known, sound.logged⟩

theorem waiting_opened (processor : Processor wire) : processor.opened.waiting = 0 :=
  if_neg (Nat.lt_irrefl _)

/-- A restart lowers the rank of what is left: some instructions have been executed before it, or
else a value was not open, and now all of them are. -/
theorem rank_of_restart {before resumed : Processor wire} {executed : List Instruction}
    (waited : executed = [] → before.waiting = 1) (left : Nat) :
    2 * left + resumed.opened.waiting < 2 * (executed.length + left) + before.waiting := by
  rw [waiting_opened]
  cases executed with
  | nil =>
      have chance := waited rfl
      simp only [List.length_nil]
      omega
  | cons instruction others =>
      simp only [List.length_cons]
      omega

end Processor

namespace Machine

variable {machine : Machine Bool Plain} {program : Program} {instruction : Instruction}
  {path : List Instruction} {after final : Reference}

/-- A plain machine that has to wait for an instruction only moves its program counter, and a
value is not open. -/
theorem attempt_of_waiting (sound : machine.processor.Sound)
    (completes : Completes (Plain.backend true) instruction
      { machine with processor := machine.processor.advance }
      { machine with processor := { machine.processor.advance with taint := ⟨true⟩ } }) :
    attempt (Plain.backend true) instruction machine =
        (.ok .restartRequested, { machine with processor := machine.processor.advance }) ∧
      machine.processor.waiting = 1 := by
  have attempted : attempt (Plain.backend true) instruction machine =
      (.ok .restartRequested, { machine with processor := machine.processor.advance }) := by
    refine attempt_eq_ok_iff.mpr ⟨_, completes, rfl, ?_⟩
    simp only [Processor.advance, sound.lowered]
  obtain ⟨_, waits⟩ := restart_of_attempt sound.lowered attempted
  obtain ⟨register, index, _, place, pending⟩ := waits.refers
  have below := sound.logged _ index place
  exact ⟨attempted, if_pos (by omega)⟩

/-- A plain machine attempts what the reference interpreter executes. Either it executes it as
well, or it only moves its program counter, and then a value is not open. -/
theorem attempt_of_reference (sound : machine.processor.Sound)
    (success : machine.reference.advance.step instruction = .ok after) :
    (∃ next, attempt (Plain.backend true) instruction machine = (.ok .proceed, next) ∧
      next.processor.Sound ∧ next.reference = after) ∨
    (attempt (Plain.backend true) instruction machine =
        (.ok .restartRequested, { machine with processor := machine.processor.advance }) ∧
      machine.processor.waiting = 1) := by
  have advanced : Processor.Sound machine.processor.advance := sound.jump _
  rcases @completes_of_reference { machine with processor := machine.processor.advance } instruction
      after advanced success with ⟨next, completes, nextSound, rfl⟩ | completes
  · left
    refine ⟨next, attempt_eq_ok_iff.mpr ⟨next, completes, ?_, ?_⟩, nextSound, rfl⟩
    · rw [nextSound.lowered]
      rfl
    · rw [← nextSound.lowered]
  · exact .inr (attempt_of_waiting sound completes)

/-- Whatever slice follows some instructions, they can be executed in the same slice. -/
def Passes (program : Program) (before : Machine Bool Plain) (path : List Instruction)
    (after : Machine Bool Plain) : Prop :=
  ∀ ⦃budget : Nat⦄ ⦃executed : List Instruction⦄ ⦃ending : Break⦄ ⦃last : Machine Bool Plain⦄,
    Slice (Plain.backend true) program budget after executed ending last →
      Slice (Plain.backend true) program (path.length + budget) before (path ++ executed) ending last

theorem Passes.refl (program : Program) (machine : Machine Bool Plain) :
    Passes program machine [] machine := by
  intro budget executed ending last slice
  rwa [List.length_nil, Nat.zero_add]

theorem Passes.cons {middle last : Machine Bool Plain}
    (next : program.instructions[machine.processor.counter]? = some instruction)
    (attempted : attempt (Plain.backend true) instruction machine = (.ok .proceed, middle))
    (passes : Passes program middle path last) : Passes program machine (instruction :: path) last := by
  intro budget executed ending final slice
  rw [List.length_cons, Nat.succ_add]
  exact .step next attempted (passes slice)

/-- What a slice of a plain machine leaves to be done if it does not get through the instructions on
`path`, at whose end the reference interpreter has reached a certain state. -/
inductive Leaves (program : Program) (reached : Reference) (before : Machine Bool Plain) (budget : Nat)
    (path executed : List Instruction) : Break → Machine Bool Plain → Prop
  | time {after : Machine Bool Plain} {rest : List Instruction} (sound : after.processor.Sound)
      (split : path = executed ++ rest)
      (executes : Reference.Executes program after.reference rest reached)
      (full : executed.length = budget) :
      Leaves program reached before budget path executed .time after
  | restart {resumed : Machine Bool Plain} {instruction : Instruction} {rest : List Instruction}
      (sound : resumed.processor.Sound) (split : path = executed ++ rest)
      (executes : Reference.Executes program resumed.reference rest reached)
      (next : program.instructions[resumed.processor.counter]? = some instruction)
      (attempted : attempt (Plain.backend true) instruction resumed =
        (.ok .restartRequested, { resumed with processor := resumed.processor.advance }))
      (waited : executed = [] → before.processor.waiting = 1) :
      Leaves program reached before budget path executed .restart
        { resumed with processor := resumed.processor.advance }

/-- A slice leaves the same after one more instruction. -/
theorem Leaves.cons {reached : Reference} {middle last : Machine Bool Plain} {budget : Nat}
    {executed : List Instruction} {ending : Break}
    (leaves : Leaves program reached middle budget path executed ending last)
    (instruction : Instruction) (before : Machine Bool Plain) :
    Leaves program reached before (budget + 1) (instruction :: path) (instruction :: executed) ending
      last := by
  cases leaves with
  | time sound split executes full =>
      exact .time sound (by rw [split]; rfl) executes (by rw [List.length_cons, full])
  | restart sound split executes next attempted waited =>
      exact .restart sound (by rw [split]; rfl) executes next attempted nofun

/-- Where the reference interpreter executes some instructions, a slice of a plain machine leaves
some of them, or it gets through all of them. -/
theorem slice_of_executes {reached : Reference} (sound : machine.processor.Sound)
    (executes : Reference.Executes program machine.reference path reached) (budget : Nat) :
    (∃ executed ending after,
      Slice (Plain.backend true) program budget machine executed ending after ∧
        Leaves program reached machine budget path executed ending after) ∨
    ∃ after, path.length ≤ budget ∧ Passes program machine path after ∧ after.processor.Sound ∧
      after.reference = reached ∧ (path = [] → after = machine) := by
  induction path generalizing machine budget with
  | nil =>
      cases executes
      exact .inr ⟨machine, Nat.zero_le _, .refl program machine, sound, rfl, fun _ => rfl⟩
  | cons instruction rest inductionHypothesis =>
      have whole := executes
      obtain _ | ⟨next, success, others⟩ := executes
      cases budget with
      | zero => exact .inl ⟨[], .time, machine, .time next, .time sound rfl whole rfl⟩
      | succ budget =>
          rcases attempt_of_reference sound success with
            ⟨middle, attempted, middleSound, rfl⟩ | ⟨attempted, waiting⟩
          · obtain ⟨executed, ending, last, slice, leaves⟩ | ⟨last, fits, passes, lastSound, same, _⟩ :=
              inductionHypothesis middleSound others budget
            · exact .inl ⟨instruction :: executed, ending, last, .step next attempted slice,
                leaves.cons instruction machine⟩
            · exact .inr ⟨last, Nat.succ_le_succ fits, passes.cons next attempted, lastSound, same,
                nofun⟩
          · exact .inl ⟨[], .restart, _, .restart next attempted,
              .restart sound rfl whole next attempted fun _ => waiting⟩

/-- What a slice of a plain machine leaves to be done, with `path` as the instructions that
were left before it. -/
def Remains (program : Program) (final : Reference) (before : Machine Bool Plain)
    (path executed : List Instruction) : Break → Machine Bool Plain → Prop
  | .done, after => after.processor.Sound ∧ after.reference = final ∧ path = executed
  | .time, after => after.processor.Sound ∧ ∃ rest, path = executed ++ rest ∧
      Reference.Finishes program after.reference rest final
  | .restart, after => ∃ resumed : Machine Bool Plain, resumed.processor.Sound ∧
      after = { resumed with processor := resumed.processor.advance } ∧
      ∃ rest, path = executed ++ rest ∧ Reference.Finishes program resumed.reference rest final ∧
        (executed = [] → before.processor.waiting = 1)

/-- Where the reference interpreter finishes, a plain machine executes slices of any size. -/
theorem slice_of_reference (sound : machine.processor.Sound)
    (finishes : Reference.Finishes program machine.reference path final) (budget : Nat) :
    ∃ executed ending after,
      Slice (Plain.backend true) program budget machine executed ending after ∧
        Remains program final machine path executed ending after ∧
          (ending = .time → executed.length = budget) := by
  obtain ⟨executes, finished⟩ := finishes
  obtain ⟨executed, ending, after, slice, leaves⟩ | ⟨after, fits, passes, afterSound, same, _⟩ :=
    slice_of_executes sound executes budget
  · refine ⟨executed, ending, after, slice, ?_⟩
    cases leaves with
    | time afterSound split others full =>
        exact ⟨⟨afterSound, _, split, others, finished⟩, fun _ => full⟩
    | restart resumedSound split others next attempted waited =>
        exact ⟨⟨_, resumedSound, rfl, _, split, ⟨others, finished⟩, waited⟩, nofun⟩
  · subst same
    obtain ⟨more, rfl⟩ := Nat.exists_eq_add_of_le fits
    have slice := passes (.done finished : Slice (Plain.backend true) program more after _ _ _)
    rw [List.append_nil] at slice
    exact ⟨path, .done, after, slice, ⟨afterSound, rfl, rfl⟩, nofun⟩

end Machine

end Garbling
