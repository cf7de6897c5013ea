import Mathlib
import Garbling.Proofs.Accounting

/-!
# Footprints

The history of a slice is the list of the instructions that it has executed, each with the
machine before and after it; an attempt that asks for a restart is not part of it. An executed
instruction leaves a footprint: where it was found, the address that it used, and where the
program went on.
-/

namespace Garbling

variable {wire state : Type}

/-- Whether an instruction reveals a value to both parties. -/
def Instruction.reveals : Instruction → Bool
  | .reveal .. => true
  | _ => false

/-- An instruction that was executed, and the machine before and after it. -/
structure Executed (wire state : Type) where
  instruction : Instruction
  before : Machine wire state
  after : Machine wire state

/-- Where an instruction was found, the address in the memory that it used, if it used one, and
where the program went on. -/
structure Footprint where
  counter : Nat
  instruction : Instruction
  address : Option Nat
  next : Nat
deriving DecidableEq, Repr

/-- The address that an instruction is about to use. -/
def Processor.addressOf (processor : Processor wire) : Instruction → Option Nat
  | .store _ base offset | .load _ base offset =>
      match processor.readClear offset with
      | .ok (some value, _) => some (base.toNat + value.toNat)
      | _ => none
  | _ => none

/-- The footprint of an executed instruction. -/
def Executed.footprint (executed : Executed wire state) : Footprint where
  counter := executed.before.processor.counter
  instruction := executed.instruction
  address := executed.before.processor.addressOf executed.instruction
  next := executed.after.processor.counter

namespace Machine

/-- Completing an instruction that reveals a value logs what the backend tells of it; any other one
leaves the log as it was. -/
theorem Completes.logs {backend : Backend wire state} {instruction : Instruction}
    {before after : Machine wire state} (completes : Completes backend instruction before after) :
    if instruction.reveals then
      ∃ wires value rest, (backend.reveal wires).runFrom before.backend = (.ok value, rest) ∧
        after.processor.log = before.processor.log.push value
    else after.processor.log = before.processor.log := by
  have unchanged {register : Register} {found : Option UInt64} {processor : Processor wire}
      (success : before.processor.readClear register = .ok (found, processor)) :
      processor.log = before.processor.log := by
    rcases Processor.readClear_ok success with rfl | ⟨_, rfl, _⟩ <;> rfl
  cases instruction with
  | reveal dst src =>
      obtain ⟨wires, value, rest, _, performed, rfl⟩ := completes
      exact ⟨wires, value, rest, performed, rfl⟩
  | garblerInput dst | evaluatorInput dst =>
      obtain ⟨value, rest, _, rfl⟩ := completes
      rfl
  | xor dst lhs rhs =>
      obtain ⟨left, right, _, _, rfl⟩ := completes
      rfl
  | and dst lhs rhs =>
      obtain ⟨left, right, value, rest, _, _, _, rfl⟩ := completes
      rfl
  | not dst src =>
      obtain ⟨value, _, rfl⟩ := completes
      rfl
  | output src =>
      obtain ⟨wires, rest, _, _, rfl⟩ := completes
      rfl
  | constant dst value | jump target =>
      subst completes
      rfl
  | store src base offset =>
      obtain ⟨value, found, processor, _, clear, stored⟩ := completes
      cases found with
      | none =>
          subst stored
          exact unchanged clear
      | some address =>
          obtain ⟨memory, _, rfl⟩ := stored
          exact unchanged clear
  | load dst base offset =>
      obtain ⟨found, processor, clear, loaded⟩ := completes
      cases found with
      | none =>
          subst loaded
          exact unchanged clear
      | some address =>
          obtain ⟨value, _, rfl⟩ := loaded
          have same := unchanged clear
          exact same
  | jumpIfZero condition target =>
      obtain ⟨found, processor, clear, rfl⟩ := completes
      have same := unchanged clear
      by_cases zero : found = some 0
      · rw [if_pos zero]
        exact same
      · rw [if_neg zero]
        exact same

/-- The instructions that are executed, at most as many as the budget allows. -/
def history (backend : Backend wire state) (program : Program) :
    (budget : Nat) → Machine wire state → List (Executed wire state)
  | 0, _ => []
  | budget + 1, machine =>
      match program.instructions[machine.processor.counter]? with
      | none => []
      | some instruction =>
          match attempt backend instruction machine with
          | (.ok .proceed, after) =>
              ⟨instruction, machine, after⟩ :: history backend program budget after
          | _ => []

/-- The footprints of the instructions that are executed. -/
def footprints (backend : Backend wire state) (program : Program) (budget : Nat)
    (machine : Machine wire state) : List Footprint :=
  (history backend program budget machine).map Executed.footprint

variable {backend : Backend wire state} {program : Program} {budget : Nat}
  {before middle after : Machine wire state} {instruction : Instruction}
  {executed : List Instruction} {ending : Break}

theorem history_of_proceed
    (next : program.instructions[before.processor.counter]? = some instruction)
    (attempted : attempt backend instruction before = (.ok .proceed, after)) :
    history backend program (budget + 1) before =
      ⟨instruction, before, after⟩ :: history backend program budget after := by
  simp only [history, next, attempted]

theorem history_of_end (finished : program.instructions[before.processor.counter]? = none) :
    history backend program budget before = [] := by
  cases budget with
  | zero => rfl
  | succ budget => simp only [history, finished]

/-- The history of a slice lists the instructions that it executes. -/
theorem Slice.map_history (slice : Slice backend program budget before executed ending after) :
    (history backend program budget before).map Executed.instruction = executed := by
  induction slice with
  | done finished => rw [history_of_end finished, List.map_nil]
  | time next => rfl
  | restart next attempted => simp only [history, next, attempted, List.map_nil]
  | step next attempted slice inductionHypothesis =>
      rw [history_of_proceed next attempted, List.map_cons, inductionHypothesis]

theorem Slice.map_footprints (slice : Slice backend program budget before executed ending after) :
    (footprints backend program budget before).map Footprint.instruction = executed := by
  rw [footprints, List.map_map, ← slice.map_history]
  rfl

/-- A slice that is done has come to the end of the program. -/
theorem Slice.finished (slice : Slice backend program budget before executed ending after)
    (done : ending = .done) : program.instructions[after.processor.counter]? = none := by
  induction slice with
  | done finished => exact finished
  | time | restart => cases done
  | step next attempted slice inductionHypothesis => exact inductionHypothesis done

end Machine

end Garbling
