import Garbling.HalfGate

/-!
# Batches

What the garbler sends for one slice of the program, in two halves. The labels of the
evaluator's inputs are not part of it; they are handed over by oblivious transfer.
-/

namespace Garbling

/-- The garbled gates and the garbler's input labels of one slice. -/
structure GateBatch where
  /-- The position of the batch in the run. -/
  number : UInt64
  /-- The index of the first gate, counted over the whole run. -/
  firstGate : UInt64
  gates : List Gate
  /-- The active labels of the garbler's inputs. -/
  garblerInputs : List Label
  /-- The number of inputs of the evaluator. -/
  evaluatorInputs : UInt64
deriving DecidableEq

/-- The masks of the wires that one slice reveals. -/
structure MaskBatch where
  /-- The position of the batch in the run, the same as that of the gates. -/
  number : UInt64
  masks : List Mask
deriving DecidableEq

/-- The two halves of a batch. -/
structure BatchPair where
  gates : GateBatch
  masks : MaskBatch
deriving DecidableEq

end Garbling
