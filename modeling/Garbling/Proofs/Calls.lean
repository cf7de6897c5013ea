import Mathlib
import Garbling.Machine.Execution
import Garbling.Proofs.Cells
import Garbling.Proofs.Validation

/-!
# Calls on a machine

A role drives its machine by four calls: it executes a slice, goes back by one instruction, opens
the values that it knows, or opens values that it is given. Calls may come in any order and may
fail. A machine of a program is well formed if its registers and its memory have the sizes that the
program needs, its counter and its references lead somewhere, and its taint flag is lowered.
-/

namespace Garbling

variable {wire state : Type}

/-- A call on a machine. -/
inductive Call where
  | execute (budget : Nat)
  | rewind
  | takeOpenings
  | applyOpenings (openings : List UInt64)

/-- What a call tells the caller. -/
inductive Reply where
  | executed (outcome : Except Error Break)
  | rewound
  | openings (values : List UInt64)
  | applied (outcome : Except Violation Unit)

namespace Machine

/-- The machine with another processor. -/
def withProcessor (machine : Machine wire state) (processor : Processor wire) :
    Machine wire state :=
  { machine with processor }

/-- Opens the values that are known, all of which are open afterwards. -/
def takeOpenings (machine : Machine wire state) : Reply × Machine wire state :=
  let (openings, processor) := machine.processor.takeOpenings
  (.openings openings, machine.withProcessor processor)

/-- Opens the given values. If they are refused then nothing changes. -/
def applyOpenings (machine : Machine wire state) (openings : List UInt64) :
    Reply × Machine wire state :=
  match machine.processor.applyOpenings openings with
  | .ok processor => (.applied (.ok ()), machine.withProcessor processor)
  | .error breach => (.applied (.error breach), machine)

/-- Carries out a call. -/
def call (backend : Backend wire state) (program : Program) :
    Call → Machine wire state → Reply × Machine wire state
  | .execute budget, machine =>
      let (outcome, machine) := machine.execute backend program budget
      (.executed outcome, machine)
  | .rewind, machine => (.rewound, machine.withProcessor machine.processor.rewind)
  | .takeOpenings, machine => machine.takeOpenings
  | .applyOpenings openings, machine => machine.applyOpenings openings

/-- Carries out some calls one after the other, whether they fail or not. -/
def callAll (backend : Backend wire state) (program : Program) :
    List Call → Machine wire state → List Reply × Machine wire state
  | [], machine => ([], machine)
  | call :: rest, machine =>
      let (reply, machine) := machine.call backend program call
      let (replies, machine) := callAll backend program rest machine
      (reply :: replies, machine)

/-- The registers, the memory and the counter of a machine fit the program, and what refers to the
log refers to a value in it. -/
structure Fits (program : Program) (machine : Machine wire state) : Prop where
  secrets : machine.processor.secrets.size = program.secretRegisters
  clears : machine.processor.clears.size = program.clearRegisters
  cells : machine.memory.cells.size = program.memorySize.toNat
  counter : machine.processor.counter ≤ program.instructions.size
  opened : machine.processor.log.opened ≤ machine.processor.log.values.size
  logged : ∀ place index : Nat, machine.processor.clears[place]? = some (.revealed index) →
    index < machine.processor.log.values.size

/-- A machine that fits the program, with its taint flag lowered. -/
structure WellFormed (program : Program) (machine : Machine wire state) : Prop
    extends Fits program machine where
  lowered : machine.processor.taint = {}

namespace Fits

variable {program : Program} {machine : Machine wire state}

/-- The backend does not matter. -/
theorem withBackend (fits : machine.Fits program) (backend : state) :
    Fits program { machine with backend } :=
  ⟨fits.secrets, fits.clears, fits.cells, fits.counter, fits.opened, fits.logged⟩

theorem jump (fits : machine.Fits program) {counter : Nat}
    (within : counter ≤ program.instructions.size) :
    (machine.withProcessor { machine.processor with counter }).Fits program :=
  ⟨fits.secrets, fits.clears, fits.cells, within, fits.opened, fits.logged⟩

theorem flag (fits : machine.Fits program) (taint : Taint) :
    (machine.withProcessor { machine.processor with taint }).Fits program :=
  ⟨fits.secrets, fits.clears, fits.cells, fits.counter, fits.opened, fits.logged⟩

theorem write (fits : machine.Fits program) (register : Register) (value : wire) :
    (machine.withProcessor (machine.processor.write register value)).Fits program where
  secrets := by
    simpa only [withProcessor, Processor.write, Array.size_setIfInBounds] using fits.secrets
  clears := fits.clears
  cells := fits.cells
  counter := fits.counter
  opened := fits.opened
  logged := fits.logged

theorem constant (fits : machine.Fits program) (register : Register) (value : UInt64) :
    (machine.withProcessor (machine.processor.writeClear register (.constant value))).Fits
      program where
  secrets := fits.secrets
  clears := by
    simpa only [withProcessor, Processor.writeClear, Array.size_setIfInBounds] using fits.clears
  cells := fits.cells
  counter := fits.counter
  opened := fits.opened
  logged := by
    intro place index held
    simp only [withProcessor, Processor.writeClear, Array.getElem?_setIfInBounds] at held
    split at held
    · split at held <;> cases held
    · exact fits.logged place index held

/-- A value that is logged, and a clear register that refers to it. -/
theorem reveal (fits : machine.Fits program) (register : Register) (value : Option UInt64) :
    (machine.withProcessor
      { machine.processor.writeClear register (.revealed machine.processor.log.values.size) with
        log := machine.processor.log.push value }).Fits program where
  secrets := fits.secrets
  clears := by
    simpa only [withProcessor, Processor.writeClear, Array.size_setIfInBounds] using fits.clears
  cells := fits.cells
  counter := fits.counter
  opened := by
    have opened := fits.opened
    simp only [withProcessor, RevealLog.push, Array.size_push]
    omega
  logged := by
    intro place index held
    simp only [withProcessor, Processor.writeClear, RevealLog.push, Array.size_push,
      Array.getElem?_setIfInBounds] at held ⊢
    split at held
    · split at held
      · cases held
        omega
      · cases held
    · exact (fits.logged place index held).trans (Nat.lt_succ_self _)

theorem store (fits : machine.Fits program) {base offset : UInt64} {value : wire}
    {memory : Memory wire} (stored : machine.memory.store base offset value = .ok memory) :
    Fits program { machine with memory } := by
  obtain ⟨_, rfl⟩ := Memory.store_eq_ok_iff.mp stored
  exact ⟨fits.secrets, fits.clears, (Memory.size_put _ _).trans fits.cells, fits.counter,
    fits.opened, fits.logged⟩

/-- Another log of the same values with a watermark inside it. -/
theorem relog (fits : machine.Fits program) {log : RevealLog}
    (size : log.values.size = machine.processor.log.values.size)
    (opened : log.opened ≤ log.values.size) :
    (machine.withProcessor { machine.processor with log }).Fits program :=
  ⟨fits.secrets, fits.clears, fits.cells, fits.counter, opened,
    fun place index held => (fits.logged place index held).trans_eq size.symm⟩

end Fits

namespace WellFormed

variable {program : Program} {machine : Machine wire state}

/-- A machine at the start of a program is well formed. -/
theorem start (program : Program) (backend : state) :
    (Machine.start program backend : Machine wire state).WellFormed program where
  secrets := Array.size_replicate
  clears := Array.size_replicate
  cells := Array.size_replicate
  counter := Nat.zero_le _
  opened := Nat.le_refl _
  logged := by
    intro place index held
    simp only [Machine.start, Program.processor, Array.getElem?_replicate] at held
    split at held <;> cases held
  lowered := rfl

theorem rewind (wellFormed : machine.WellFormed program) :
    (machine.withProcessor machine.processor.rewind).WellFormed program where
  toFits := wellFormed.jump ((Nat.sub_le _ _).trans wellFormed.counter)
  lowered := wellFormed.lowered

theorem takeOpenings (wellFormed : machine.WellFormed program) :
    machine.takeOpenings.2.WellFormed program where
  toFits := wellFormed.relog rfl (Nat.le_refl _)
  lowered := wellFormed.lowered

theorem applyOpenings (wellFormed : machine.WellFormed program) (openings : List UInt64) :
    (machine.applyOpenings openings).2.WellFormed program := by
  rw [Machine.applyOpenings]
  split
  · next processor applied =>
      simp only [Processor.applyOpenings, RevealLog.applyOpenings] at applied
      split at applied
      · next count =>
          cases applied
          have opened := wellFormed.opened
          have size : (machine.processor.log.values.take machine.processor.log.opened ++
              (openings.map some).toArray).size = machine.processor.log.values.size := by
            simp only [RevealLog.pending] at count
            simp only [Array.size_append, Array.take_eq_extract, Array.size_extract,
              List.size_toArray, List.length_map]
            omega
          exact ⟨wellFormed.relog size size.ge, wellFormed.lowered⟩
      · cases applied
  · exact wellFormed

end WellFormed

end Machine

end Garbling
