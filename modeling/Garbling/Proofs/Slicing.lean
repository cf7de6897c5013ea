import Mathlib
import Garbling.Proofs.Slice

/-!
# The slicing law

Whatever a call of `execute` comes to, the machine has completed some instructions one after the
other, at most as many as the budget allows, and then something has stopped it: the end of the
program, the end of the budget, an instruction that waits, or an instruction that fails. Where a
machine stops does not depend on the budget, except that it runs out. So two slices in a row come to
the same as one slice with both budgets.
-/

namespace Garbling

namespace Machine

variable {wire state : Type} {backend : Backend wire state} {program : Program}

/-- The first machine completes the given instructions one after the other and becomes the second
one. -/
inductive Advances (backend : Backend wire state) (program : Program) :
    Machine wire state → List Instruction → Machine wire state → Prop
  | refl {machine : Machine wire state} : Advances backend program machine [] machine
  | step {before middle after : Machine wire state} {instruction : Instruction}
      {rest : List Instruction}
      (next : program.instructions[before.processor.counter]? = some instruction)
      (attempted : attempt backend instruction before = (.ok .proceed, middle))
      (others : Advances backend program middle rest after) :
      Advances backend program before (instruction :: rest) after

/-- Why a machine completes no further instruction when `left` is left of its budget, and what its
slice comes to. -/
inductive Stops (backend : Backend wire state) (program : Program) (machine : Machine wire state) :
    (left : Nat) → Except Error Break × Machine wire state → Prop
  | done {left : Nat} (finished : program.instructions[machine.processor.counter]? = none) :
      Stops backend program machine left (.ok .done, machine)
  | time {instruction : Instruction}
      (next : program.instructions[machine.processor.counter]? = some instruction) :
      Stops backend program machine 0 (.ok .time, machine)
  | restart {left : Nat} {instruction : Instruction} {after : Machine wire state}
      (next : program.instructions[machine.processor.counter]? = some instruction)
      (attempted : attempt backend instruction machine = (.ok .restartRequested, after)) :
      Stops backend program machine (left + 1) (.ok .restart, after)
  | failed {left : Nat} {instruction : Instruction} {error : Error} {after : Machine wire state}
      (next : program.instructions[machine.processor.counter]? = some instruction)
      (attempted : attempt backend instruction machine = (.error error, after)) :
      Stops backend program machine (left + 1) (.error error, after)

variable {machine middle last : Machine wire state} {executed : List Instruction} {left : Nat}
  {result : Except Error Break × Machine wire state}

/-- A slice whose budget covers some instructions goes on after them with the rest of it. -/
theorem Advances.execute_add (advances : Advances backend program machine executed last)
    (left : Nat) :
    execute backend program (executed.length + left) machine =
      execute backend program left last := by
  induction advances with
  | refl => rw [List.length_nil, Nat.zero_add]
  | step next attempted others inductionHypothesis =>
      rw [List.length_cons, Nat.succ_add]
      conv_lhs => unfold execute
      simp only [next, attempted]
      exact inductionHypothesis

/-- A slice of a machine that stops comes to what it stops with. -/
theorem Stops.execute_eq (stops : Stops backend program machine left result) :
    execute backend program left machine = result := by
  unfold execute
  cases stops with
  | done finished => rw [finished]
  | time next => rw [next]
  | restart next attempted | failed next attempted => simp only [next, attempted]

/-- What a slice comes to: some instructions are completed, and then the machine stops. -/
theorem execute_eq_iff {budget : Nat} :
    execute backend program budget machine = result ↔
      ∃ executed last left, executed.length + left = budget ∧
        Advances backend program machine executed last ∧
          Stops backend program last left result := by
  constructor
  · rintro rfl
    induction budget generalizing machine with
    | zero =>
        refine ⟨[], machine, 0, rfl, .refl, ?_⟩
        unfold execute
        cases next : program.instructions[machine.processor.counter]? with
        | none => exact .done next
        | some instruction => exact .time next
    | succ budget inductionHypothesis =>
        unfold execute
        cases next : program.instructions[machine.processor.counter]? with
        | none => exact ⟨[], machine, budget + 1, Nat.zero_add _, .refl, .done next⟩
        | some instruction =>
            dsimp only
            generalize attempted : attempt backend instruction machine = outcome
            obtain ⟨error | checkpoint, after⟩ := outcome
            · exact ⟨[], machine, budget + 1, Nat.zero_add _, .refl, .failed next attempted⟩
            · cases checkpoint with
              | restartRequested =>
                  exact ⟨[], machine, budget + 1, Nat.zero_add _, .refl, .restart next attempted⟩
              | proceed =>
                  obtain ⟨executed, last, left, rfl, advances, stops⟩ := @inductionHypothesis after
                  exact ⟨instruction :: executed, last, left, Nat.succ_add _ _,
                    .step next attempted advances, stops⟩
  · rintro ⟨executed, last, left, rfl, advances, stops⟩
    rw [advances.execute_add, stops.execute_eq]

/-- A slice completes the instructions that it executes, and then its machine stops. -/
theorem Slice.stops {budget : Nat} {before after : Machine wire state} {ending : Break}
    (slice : Slice backend program budget before executed ending after) :
    ∃ last left, executed.length + left = budget ∧ Advances backend program before executed last ∧
      Stops backend program last left (.ok ending, after) := by
  induction slice with
  | @done budget before finished => exact ⟨before, budget, Nat.zero_add _, .refl, .done finished⟩
  | @time before instruction next => exact ⟨before, 0, rfl, .refl, .time next⟩
  | @restart budget before after instruction next attempted =>
      exact ⟨before, budget + 1, Nat.zero_add _, .refl, .restart next attempted⟩
  | step next attempted slice inductionHypothesis =>
      obtain ⟨last, left, rfl, advances, stops⟩ := inductionHypothesis
      exact ⟨last, left, Nat.succ_add _ _, .step next attempted advances, stops⟩

/-- A machine that runs out of its budget has nothing left of it, and nothing has happened to it. -/
theorem Stops.of_time (stops : Stops backend program machine left (.ok .time, middle)) :
    left = 0 ∧ middle = machine := by
  cases stops with
  | time => exact ⟨rfl, rfl⟩

/-- A machine that stops for another reason than its budget does so with more of it, too. -/
theorem Stops.add (stops : Stops backend program machine left result)
    (other : result.1 ≠ .ok .time) (more : Nat) :
    Stops backend program machine (left + more) result := by
  cases stops with
  | done finished => exact .done finished
  | time => exact absurd rfl other
  | restart next attempted =>
      rw [Nat.add_right_comm]
      exact .restart next attempted
  | failed next attempted =>
      rw [Nat.add_right_comm]
      exact .failed next attempted

/-- A slice that runs out of its budget and the slice after it come to the same as one slice with
both budgets, and a slice that ends for another reason comes to the same with any larger budget. A
slice has completed some instructions, no more than its budget, when the machine stops. -/
theorem slices_compose (backend : Backend wire state) (program : Program)
    (machine : Machine wire state) (budget more : Nat) :
    execute backend program (budget + more) machine =
        (match execute backend program budget machine with
        | (.ok .time, middle) => execute backend program more middle
        | result => result) ∧
      ∃ executed last, Advances backend program machine executed last ∧
        executed.length ≤ budget ∧
          Stops backend program last (budget - executed.length)
            (execute backend program budget machine) := by
  obtain ⟨executed, last, left, rfl, advances, stops⟩ :=
    execute_eq_iff.mp (rfl : execute backend program budget machine = _)
  refine ⟨?_, executed, last, advances, Nat.le_add_right _ _, ?_⟩
  · rw [Nat.add_assoc, advances.execute_add]
    split
    · next middle ends =>
        rw [ends] at stops
        obtain ⟨rfl, rfl⟩ := stops.of_time
        rw [Nat.zero_add]
    · next other =>
        refine (stops.add (fun ends => ?_) more).execute_eq
        exact other _ (Prod.ext ends rfl)
  · rwa [Nat.add_sub_cancel_left]

end Machine

end Garbling
