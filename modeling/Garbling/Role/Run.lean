import Garbling.Network.Interception
import Garbling.Network.Schedule
import Garbling.Role.Evaluator
import Garbling.Role.Garbler

/-!
# Runs

The garbler and the evaluator, each with its own task, connected to one another.
-/

namespace Garbling

namespace Run

variable (suite : Suite)

/-- What a party comes to at the end of a run. -/
abbrev Outcome := Except Error Outputs

/-- Both roles. `usable` tells which directories can hold a store. -/
def parties (usable : String → Bool) (garbler evaluator : Task) :
    Parties (Garbler.Phase suite) Outcome (Evaluator.Phase suite) Outcome where
  garbler := Garbler.rounds garbler
  evaluator := Evaluator.rounds usable evaluator

/-- A run at its start, from the generators of the parties. -/
def start (usable : String → Bool) (garbler evaluator : Task)
    (garblerGenerator evaluatorGenerator : suite.Generator) :
    Network (Garbler.Phase suite) Outcome (Evaluator.Phase suite) Outcome :=
  .start (parties suite usable garbler evaluator) (.entering garblerGenerator)
    (.entering evaluatorGenerator) {}

/-- Whether a party has failed. -/
def hasFailed {σ : Type} : Activity σ Outcome → Bool
  | .ended (.error _) => true
  | _ => false

/-- Carries out a run of both roles on the same program under the same settings. The outputs
are the garbler's and the evaluator's; the failure is that of the party that fails first.
There is no result if the limit of steps is reached. -/
def simulate (usable : String → Bool) (settings : Settings) (program : Program)
    (garblerInputs evaluatorInputs : List Bool)
    (garblerGenerator evaluatorGenerator : suite.Generator) : Option (Except Error (Outputs × Outputs)) :=
  let garbler := Task.ofSettings settings program garblerInputs
  let evaluator := Task.ofSettings settings program evaluatorInputs
  let parties := parties suite usable garbler evaluator
  let network := Network.run parties
    (fun network => hasFailed network.garbler || hasFailed network.evaluator)
    (start suite usable garbler evaluator garblerGenerator evaluatorGenerator)
  match network.garbler.result?, network.evaluator.result? with
  | some (.error error), _ => some (.error error)
  | _, some (.error error) => some (.error error)
  | some (.ok garbler), some (.ok evaluator) => some (.ok (garbler, evaluator))
  | _, _ => none

end Run

end Garbling
