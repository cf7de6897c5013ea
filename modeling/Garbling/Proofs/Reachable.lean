import Mathlib
import Garbling.Proofs.InRange
import Garbling.Proofs.Slicing

/-!
# Reachable machines

A machine is used by calls, each of which may fail, and between two calls its user may put the
backend into another state, as a role does when it sends off a batch or loads the next one. A
machine that is reached in this way from the start of a program is well formed.
-/

namespace Garbling

namespace Machine

variable {wire state : Type} {program : Program} {before machine after : Machine wire state}

/-- The first machine becomes the second one by some calls, between which the backend may be put
into any state. -/
inductive Leads (program : Program) : Machine wire state → Machine wire state → Prop
  | refl {machine : Machine wire state} : Leads program machine machine
  | call {before after : Machine wire state} (leads : Leads program before after)
      (backend : Backend wire state) (call : Call) :
      Leads program before (after.call backend program call).2
  | handed {before after : Machine wire state} (leads : Leads program before after)
      (given : state) : Leads program before { after with backend := given }

/-- The machine is reached from the start of the program. -/
def Reachable (program : Program) (machine : Machine wire state) : Prop :=
  ∃ initial, Leads program (.start program initial) machine

/-- Calls that are carried out one after the other lead to the machine that they leave. -/
theorem Leads.callAll (leads : Leads program before machine) (backend : Backend wire state)
    (calls : List Call) : Leads program before (machine.callAll backend program calls).2 := by
  induction calls generalizing machine with
  | nil => exact leads
  | cons call rest inductionHypothesis => exact inductionHypothesis (leads.call backend call)

/-- The backend does not matter. -/
theorem WellFormed.handed (wellFormed : machine.WellFormed program) (given : state) :
    WellFormed program { machine with backend := given } :=
  ⟨wellFormed.withBackend given, wellFormed.lowered⟩

theorem Leads.wellFormed (leads : Leads program before after)
    (wellFormed : before.WellFormed program) : after.WellFormed program := by
  induction leads with
  | refl => exact wellFormed
  | call _ backend call inductionHypothesis => exact (inductionHypothesis.call backend call).2
  | handed _ given inductionHypothesis => exact inductionHypothesis.handed given

theorem Reachable.wellFormed (reachable : Reachable program machine) :
    machine.WellFormed program := by
  obtain ⟨initial, leads⟩ := reachable
  exact leads.wellFormed (.start program initial)

/-- A machine that completes instructions of a program stays well formed. -/
theorem Advances.wellFormed {backend : Backend wire state} {executed : List Instruction}
    (advances : Advances backend program before executed after)
    (wellFormed : before.WellFormed program) : after.WellFormed program := by
  induction advances with
  | refl => exact wellFormed
  | step next attempted others inductionHypothesis =>
      have reached := (wellFormed.attempt backend next).2
      rw [attempted] at reached
      exact inductionHypothesis reached

end Machine

end Garbling
