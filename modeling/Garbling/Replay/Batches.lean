import Garbling.Replay.Store
import Garbling.Wire.Messages

/-!
# Stored runs

The batches of a whole run, stored until they are replayed, together with the input labels
that were received for them. Only batches with inputs of the evaluator have labels.
-/

namespace Garbling

/-- The stored batches of a run. -/
structure StoredRun where
  gates : Store GateBatch
  masks : Store MaskBatch
  /-- The numbers of inputs of the batches that have any, until they are asked for. -/
  inputCounts : List UInt64 := []
  /-- The labels of the batches that have inputs, in order. -/
  inputLabels : List (List Label) := []

namespace StoredRun

/-- A run without batches. -/
def empty (storage : Storage) : StoredRun := { gates := .empty storage, masks := .empty storage }

/-- Adds a batch. What was stored before an error stays stored. -/
def push (run : StoredRun) (batch : BatchPair) : Except StoreError Unit × StoredRun :=
  let count := batch.gates.evaluatorInputs
  let run :=
    if 0 < count then { run with inputCounts := run.inputCounts ++ [count] } else run
  match run.gates.push Layout.compact.gateBatch batch.gates with
  | .error error => (.error error, run)
  | .ok gates =>
      match run.masks.push Layout.compact.maskBatch batch.masks with
      | .error error => (.error error, { run with gates })
      | .ok masks => (.ok (), { run with gates, masks })

/-- Adds the labels of the next batch that has inputs. -/
def pushInputLabels (run : StoredRun) (labels : List Label) : StoredRun :=
  { run with inputLabels := run.inputLabels ++ [labels] }

/-- The numbers of inputs of the stored batches that have any. They are told only once. -/
def takeInputCounts (run : StoredRun) : List UInt64 × StoredRun :=
  (run.inputCounts, { run with inputCounts := [] })

/-- The two halves of the next batch and the store without them. Both stores are read, even
if the first one is empty. -/
def popPair (run : StoredRun) : Except Error BatchPair × StoredRun :=
  let (gates, gateStore) := run.gates.pop Layout.compact.gateBatch
  let run := { run with gates := gateStore }
  match gates with
  | .error error => (.error (.store error), run)
  | .ok gates =>
      let (masks, maskStore) := run.masks.pop Layout.compact.maskBatch
      let run := { run with masks := maskStore }
      match gates, masks with
      | _, .error error => (.error (.store error), run)
      | some gates, .ok (some masks) => (.ok ⟨gates, masks⟩, run)
      | _, _ => (.error (.violation .batchExhausted), run)

/-- Takes out the next batch, which must have the given number, with its input labels. -/
def pop (run : StoredRun) (number : UInt64) : Except Error (BatchPair × List Label) × StoredRun :=
  match run.popPair with
  | (.error error, run) => (.error error, run)
  | (.ok batch, run) =>
      if batch.gates.number ≠ number then
        (.error (.violation (.outOfOrderBatch number batch.gates.number)), run)
      else if batch.masks.number ≠ number then
        (.error (.violation (.outOfOrderBatch number batch.masks.number)), run)
      else if batch.gates.evaluatorInputs = 0 then (.ok (batch, []), run)
      else
        match run.inputLabels with
        | [] =>
            (.error (.violation (.missingInputLabels batch.gates.evaluatorInputs.toNat 0)), run)
        | labels :: inputLabels => (.ok (batch, labels), { run with inputLabels })

/-- The number of batches that are left. -/
def remaining (run : StoredRun) : Nat := run.gates.remaining

end StoredRun

end Garbling
