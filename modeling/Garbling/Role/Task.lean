import Garbling.Network.Session
import Garbling.Program.Basic

/-!
# Tasks and outputs

What a party is asked to do, and what it reports at the end of a run.
-/

namespace Garbling

/-- One party's part of a run. -/
structure Task where
  /-- The mode that the role is made for. -/
  typed : Mode
  settings : Settings
  program : Program
  inputs : List Bool

/-- A task for the mode that the settings name. -/
def Task.ofSettings (settings : Settings) (program : Program) (inputs : List Bool) : Task :=
  ⟨settings.mode, settings, program, inputs⟩

/-- The values that a party learns. -/
structure Outputs where
  /-- The values revealed to both parties, in program order. -/
  revealed : List UInt64 := []
  /-- The values revealed to the evaluator only; the garbler has none. -/
  evaluatorOnly : List UInt64 := []
deriving DecidableEq, Repr

/-- The round that a session makes, if the rest of the run follows from its outcome. -/
def Session.toRound {σ τ α : Type} (session : Session σ (Next τ Outputs)) (state : σ)
    (wrap : σ → τ → α) : Process (Next α (Except Error Outputs)) := do
  match ← session state with
  | (.ok (.again phase), state) => return .again (wrap state phase)
  | (.ok (.finish outputs), _) => return .finish (.ok outputs)
  | (.error error, _) => return .finish (.error error)

end Garbling
