import Garbling.Batch.Basic
import Garbling.Error

/-!
# Readers

A reader hands out the contents of one batch, each kind of content in order. The slice that
reads a batch must need all of it and nothing more.
-/

namespace Garbling

/-- What has not been read yet. -/
structure BatchReader where
  gates : List Gate := []
  garblerInputs : List Label := []
  evaluatorInputs : List Label := []
  masks : List Mask := []
deriving DecidableEq

namespace BatchReader

/-- A reader at the start of a batch and of the labels received for it. The halves of the
batch must belong together, and there must be one label for each input. -/
def ofBatch (batch : BatchPair) (labels : List Label) : Except Violation BatchReader :=
  if batch.gates.number ≠ batch.masks.number then
    .error (.mismatchedBatchPair batch.gates.number batch.masks.number)
  else if labels.length ≠ batch.gates.evaluatorInputs.toNat then
    .error (.missingInputLabels batch.gates.evaluatorInputs.toNat labels.length)
  else
    .ok
      { gates := batch.gates.gates
        garblerInputs := batch.gates.garblerInputs
        evaluatorInputs := labels
        masks := batch.masks.masks }

/-- The next garbled gate. -/
def nextGate (reader : BatchReader) : Except Violation (Gate × BatchReader) :=
  match reader.gates with
  | [] => .error .batchExhausted
  | gate :: gates => .ok (gate, { reader with gates })

/-- The next input label of the garbler. -/
def nextGarblerInput (reader : BatchReader) : Except Violation (Label × BatchReader) :=
  match reader.garblerInputs with
  | [] => .error .batchExhausted
  | label :: garblerInputs => .ok (label, { reader with garblerInputs })

/-- The next input label of the evaluator. -/
def nextEvaluatorInput (reader : BatchReader) : Except Violation (Label × BatchReader) :=
  match reader.evaluatorInputs with
  | [] => .error .batchExhausted
  | label :: evaluatorInputs => .ok (label, { reader with evaluatorInputs })

/-- The next mask. -/
def nextMask (reader : BatchReader) : Except Violation (Mask × BatchReader) :=
  match reader.masks with
  | [] => .error .batchExhausted
  | mask :: masks => .ok (mask, { reader with masks })

/-- The number of items that have not been read. -/
def remaining (reader : BatchReader) : Nat :=
  reader.gates.length + reader.garblerInputs.length + reader.evaluatorInputs.length +
    reader.masks.length

/-- Everything must have been read. -/
def finish (reader : BatchReader) : Except Violation Unit :=
  if reader.remaining = 0 then .ok () else .error (.trailingBatchData reader.remaining)

end BatchReader

end Garbling
