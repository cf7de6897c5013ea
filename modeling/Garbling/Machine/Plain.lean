import Garbling.Bits
import Garbling.Machine.Execution

/-!
# Plain execution

The backend whose wires are the truth values themselves. It takes the inputs of both parties
from two lists and collects the values that only the evaluator learns.
-/

namespace Garbling

/-- The state of a plain execution. -/
structure Plain where
  garblerInputs : List Bool
  evaluatorInputs : List Bool
  /-- The values revealed to the evaluator only, in order. -/
  outputs : List UInt64 := []
deriving DecidableEq, Repr

namespace Plain

/-- The plain treatment of the gates. Revealed values are told at once if they are `known`. -/
def backend (known : Bool) : Backend Bool Plain where
  garblerInput := do
    match (← get).garblerInputs with
    | [] => throw (.execution .missingGarblerInput)
    | bit :: rest =>
        modify ({ · with garblerInputs := rest })
        return bit
  evaluatorInput := do
    match (← get).evaluatorInputs with
    | [] => throw (.execution .missingEvaluatorInput)
    | bit :: rest =>
        modify ({ · with evaluatorInputs := rest })
        return bit
  and a b := return a && b
  xor a b := a ^^ b
  not a := !a
  reveal bits := return if known then some (Bits.value bits) else none
  output bits := modify fun plain => { plain with outputs := plain.outputs ++ [Bits.value bits] }

end Plain

end Garbling
