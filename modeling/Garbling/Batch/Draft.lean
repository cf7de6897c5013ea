import Garbling.Batch.Basic

/-!
# Drafts

What the garbler has produced so far for the current slice. Taking the batch out of a draft
leaves it empty, ready for the next slice.
-/

namespace Garbling

/-- The contents of a batch in the making. -/
structure Draft where
  /-- The index of the first gate of the batch. -/
  firstGate : UInt64 := 0
  gates : Array Gate := #[]
  garblerInputs : Array Label := #[]
  /-- The zero labels of the evaluator's inputs. -/
  evaluatorInputs : Array Label := #[]
  masks : Array Mask := #[]
deriving DecidableEq

namespace Draft

/-- Adds a garbled gate. -/
def addGate (draft : Draft) (gate : Gate) : Draft :=
  { draft with gates := draft.gates.push gate }

/-- Adds the active label of an input of the garbler. -/
def addGarblerInput (draft : Draft) (label : Label) : Draft :=
  { draft with garblerInputs := draft.garblerInputs.push label }

/-- Adds the zero label of an input of the evaluator. -/
def addEvaluatorInput (draft : Draft) (zeroLabel : Label) : Draft :=
  { draft with evaluatorInputs := draft.evaluatorInputs.push zeroLabel }

/-- Adds the mask of a revealed wire. -/
def addMask (draft : Draft) (mask : Mask) : Draft :=
  { draft with masks := draft.masks.push mask }

/-- The batch with the given number, the zero labels of the evaluator's inputs, and an empty
draft for the batch that starts at `nextGate`. -/
def take (draft : Draft) (number nextGate : UInt64) : BatchPair × List Label × Draft :=
  let gates : GateBatch :=
    { number
      firstGate := draft.firstGate
      gates := draft.gates.toList
      garblerInputs := draft.garblerInputs.toList
      evaluatorInputs := UInt64.ofNat draft.evaluatorInputs.size }
  (⟨gates, ⟨number, draft.masks.toList⟩⟩, draft.evaluatorInputs.toList, { firstGate := nextGate })

end Draft

end Garbling
