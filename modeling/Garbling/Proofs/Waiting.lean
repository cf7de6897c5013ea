import Mathlib
import Garbling.Proofs.Restart

/-!
# Programs that never wait

Which clear registers hold revealed values follows from the instructions that were executed. If
no instruction needs the value of such a register, then no slice asks for a restart, even if no
value is ever opened.
-/

namespace Garbling

namespace Instruction

/-- The clear registers that hold revealed values after an instruction, from those before it. -/
def pending (before : Finset Register) : Instruction → Finset Register
  | .reveal dst _ => insert dst before
  | .constant dst _ => before.erase dst
  | _ => before

/-- The clear registers that hold revealed values after some instructions. -/
def allPending (before : Finset Register) (executed : List Instruction) : Finset Register :=
  executed.foldl Instruction.pending before

/-- None of the instructions needs a value that was revealed before it. -/
def NeverWaits (before : Finset Register) : List Instruction → Prop
  | [] => True
  | instruction :: rest =>
      (∀ register, instruction.reads? = some register → register ∉ before) ∧
        NeverWaits (instruction.pending before) rest

theorem NeverWaits.of_append {before : Finset Register} {executed rest : List Instruction}
    (never : NeverWaits before (executed ++ rest)) :
    NeverWaits (allPending before executed) rest := by
  induction executed generalizing before with
  | nil => exact never
  | cons instruction executed inductionHypothesis => exact inductionHypothesis never.2

end Instruction

variable {wire state : Type}

/-- All clear registers that hold revealed values are among the given ones. -/
def Processor.Pending (processor : Processor wire) (registers : Finset Register) : Prop :=
  ∀ (register : Register) (index : Nat),
    processor.clears[register.toNat]? = some (.revealed index) → register ∈ registers

namespace Processor.Pending

variable {processor : Processor wire} {registers : Finset Register}

theorem start (program : Program) : (program.processor : Processor wire).Pending ∅ := by
  intro register index held
  simp only [Program.processor, Array.getElem?_replicate] at held
  split at held
  · cases held
  · cases held

/-- Something else is put into a clear register. -/
theorem writeClear (pending : processor.Pending registers) {dst : Register} {clear : Clear}
    {after : Finset Register} (kept : ∀ register ∈ registers, register ≠ dst → register ∈ after)
    (put : ∀ index, clear = .revealed index → dst ∈ after) :
    (processor.writeClear dst clear).Pending after := by
  intro register index held
  simp only [Processor.writeClear, Array.getElem?_setIfInBounds] at held
  split at held
  · next same =>
      obtain rfl := UInt64.toNat_inj.mp same
      split at held
      · exact put index (Option.some.inj held)
      · cases held
  · next other =>
      exact kept register (pending register index held) fun same => other (same ▸ rfl)

/-- Reading a clear register changes none. -/
theorem of_readClear (pending : processor.Pending registers) {register : Register}
    {found : Option UInt64} {after : Processor wire}
    (read : processor.readClear register = .ok (found, after)) : after.Pending registers := by
  rcases Processor.readClear_ok read with rfl | ⟨_, rfl, _⟩
  · exact pending
  · exact pending

end Processor.Pending

namespace Machine

variable {backend : Backend wire state} {instruction : Instruction}
  {before after : Machine wire state} {registers : Finset Register} {program : Program}

/-- A completed instruction leaves revealed values in the registers that are told. -/
theorem Completes.pending (completes : Completes backend instruction before after)
    (pending : before.processor.Pending registers) :
    after.processor.Pending (instruction.pending registers) := by
  cases instruction with
  | garblerInput dst | evaluatorInput dst =>
      obtain ⟨value, rest, _, rfl⟩ := completes
      exact pending
  | xor dst lhs rhs =>
      obtain ⟨left, right, _, _, rfl⟩ := completes
      exact pending
  | and dst lhs rhs =>
      obtain ⟨left, right, value, rest, _, _, _, rfl⟩ := completes
      exact pending
  | not dst src =>
      obtain ⟨value, _, rfl⟩ := completes
      exact pending
  | reveal dst src =>
      obtain ⟨wires, value, rest, _, _, rfl⟩ := completes
      exact pending.writeClear (fun register member _ => Finset.mem_insert_of_mem member)
        fun _ _ => Finset.mem_insert_self dst registers
  | output src =>
      obtain ⟨wires, rest, _, _, rfl⟩ := completes
      exact pending
  | constant dst value =>
      subst completes
      exact pending.writeClear (fun register member other => Finset.mem_erase.mpr ⟨other, member⟩)
        nofun
  | store src base offset =>
      obtain ⟨value, found, processor, _, clear, stored⟩ := completes
      cases found with
      | none =>
          subst stored
          exact pending.of_readClear clear
      | some offset =>
          obtain ⟨memory, _, rfl⟩ := stored
          exact pending.of_readClear clear
  | load dst base offset =>
      obtain ⟨found, processor, clear, loaded⟩ := completes
      cases found with
      | none =>
          subst loaded
          exact pending.of_readClear clear
      | some offset =>
          obtain ⟨value, _, rfl⟩ := loaded
          have read := pending.of_readClear clear
          exact read
  | jumpIfZero condition target =>
      obtain ⟨found, processor, clear, rfl⟩ := completes
      have read := pending.of_readClear clear
      split
      · exact read
      · exact read
  | jump target =>
      subst completes
      exact pending

/-- An instruction that asks for a restart needs a value that was revealed. -/
theorem Waits.mem (waits : before.Waits instruction) (pending : before.processor.Pending registers) :
    ∃ register ∈ registers, instruction.reads? = some register := by
  obtain ⟨register, index, reads, place, _⟩ := waits.refers
  exact ⟨register, pending register index place, reads⟩

/-- After a slice the executed instructions tell which registers hold revealed values. A slice
that asks for a restart has come to an instruction that needs one of them. -/
theorem Slice.pending {budget : Nat} {executed : List Instruction} {ending : Break}
    (slice : Slice backend program budget before executed ending after)
    (lowered : before.processor.taint = {}) (pending : before.processor.Pending registers) :
    after.processor.Pending (Instruction.allPending registers executed) ∧
      (ending = .restart → ∃ instruction register,
        program.instructions[after.processor.counter - 1]? = some instruction ∧
          instruction.reads? = some register ∧
            register ∈ Instruction.allPending registers executed) := by
  induction slice generalizing registers with
  | done finished => exact ⟨pending, nofun⟩
  | time next => exact ⟨pending, nofun⟩
  | restart next attempted =>
      obtain ⟨rfl, waits⟩ := restart_of_attempt lowered attempted
      obtain ⟨register, member, reads⟩ := waits.mem pending
      exact ⟨pending, fun _ => ⟨_, register, next, reads, member⟩⟩
  | step next attempted slice inductionHypothesis =>
      refine inductionHypothesis (taint_of_attempt attempted) ?_
      obtain ⟨middle, completes, _, rfl⟩ := attempt_eq_ok_iff.mp attempted
      exact completes.pending pending

/-- A slice of a plain machine does not ask for a restart if no instruction that is left needs a
value that was revealed before it. -/
theorem Remains.not_restart {machine last : Machine Bool Plain} {final : Reference}
    {path executed : List Instruction} {budget : Nat} {ending : Break}
    (remains : Remains program final machine path executed ending last)
    (slice : Slice (Plain.backend true) program budget machine executed ending last)
    (lowered : machine.processor.taint = {}) (pending : machine.processor.Pending registers)
    (never : Instruction.NeverWaits registers path) : ending ≠ .restart := by
  rintro rfl
  obtain ⟨resumed, _, rfl, rest, rfl, ⟨executes, finished⟩, _⟩ := remains
  obtain ⟨_, restarts⟩ := slice.pending lowered pending
  obtain ⟨instruction, register, next, reads, member⟩ := restarts rfl
  cases executes with
  | refl => cases finished.symm.trans next
  | step found _ _ =>
      cases found.symm.trans next
      exact never.of_append.1 register reads member

end Machine

end Garbling
