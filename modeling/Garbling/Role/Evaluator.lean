import Garbling.Batch.Reader
import Garbling.Batch.Stream
import Garbling.Bits
import Garbling.Machine.Execution
import Garbling.Replay.Batches
import Garbling.Role.Handshake
import Garbling.Role.Task
import Garbling.Transfer.InputLabels

/-!
# The evaluator

The evaluator executes the program on the active labels that it gets from the batches and from
the transfers. In continuous mode it evaluates each batch when it arrives, and before a
restart it opens the values revealed so far. In buffered mode it stores all batches, then
receives all its input labels, and then replays the run. A batch must come in order and must
hold exactly what its slice needs.
-/

namespace Garbling

/-- What evaluating changes besides the registers and the memory. -/
structure EvaluationState where
  reader : BatchReader := {}
  /-- The number of gates evaluated so far. -/
  gateCount : UInt64 := 0
  /-- The values revealed to the evaluator only, in order. -/
  outputs : Array UInt64 := #[]

namespace EvaluationState

/-- Takes an item out of the current batch. -/
def next {item : Type} (take : BatchReader → Except Violation (item × BatchReader)) :
    Action EvaluationState item := do
  match take (← get).reader with
  | .ok (value, reader) =>
      modify ({ · with reader })
      return value
  | .error breach => throw (.violation breach)

/-- The truth values of some wires, each from its label and the next mask. -/
def decodeAll : List Label → Action EvaluationState (List Bool)
  | [] => return []
  | label :: rest => do
      let mask ← next BatchReader.nextMask
      return mask.decode label :: (← decodeAll rest)

/-- The value of some wires, the first being the least significant bit. -/
def decode (labels : List Label) : Action EvaluationState UInt64 :=
  Bits.value <$> decodeAll labels

/-- The evaluator's treatment of the gates: its wires are active labels. -/
def backend (pad : Pad) : Backend Label EvaluationState where
  garblerInput := next BatchReader.nextGarblerInput
  evaluatorInput := next BatchReader.nextEvaluatorInput
  and a b := do
    let gate ← next BatchReader.nextGate
    let index := (← get).gateCount
    modify ({ · with gateCount := index + 1 })
    return gate.evaluate pad index a b
  xor a b := a ^^^ b
  not a := a
  reveal labels := some <$> decode labels
  output labels := do
    let value ← decode labels
    modify fun state => { state with outputs := state.outputs.push value }

end EvaluationState

/-- The evaluator after its setup. -/
structure Evaluator (suite : Suite) where
  transfer : LabelTransfer suite
  machine : Machine Label EvaluationState
  /-- The input bits that no batch has asked for. -/
  inputs : List Bool
  /-- The number of the next batch. -/
  nextBatch : UInt64 := 0

namespace Evaluator

variable {suite : Suite}

/-- Agrees on the settings and sets up the transfer of labels. -/
def enter (task : Task) : Session (LabelTransfer suite × suite.Generator) (Evaluator suite) := do
  handshake task.typed task.settings
  LabelTransfer.setup none
  let (transfer, _) ← get
  return { transfer, machine := .start task.program {}, inputs := task.inputs }

/-- The batch must be the next one of the run. -/
def checkPosition (evaluator : Evaluator suite) (gates : GateBatch) : Except Violation Unit :=
  if gates.number ≠ evaluator.nextBatch then
    .error (.outOfOrderBatch evaluator.nextBatch gates.number)
  else if gates.firstGate ≠ evaluator.machine.backend.gateCount then
    .error (.unexpectedGateIndex evaluator.machine.backend.gateCount gates.firstGate)
  else .ok ()

/-- The input bits for the given number of wires. -/
def takeChoices (count : UInt64) : Session (Evaluator suite) (List Bool) := do
  let inputs := (← get).inputs
  if inputs.length < count.toNat then
    throw (.execution .missingEvaluatorInput)
  modify ({ · with inputs := inputs.drop count.toNat })
  return inputs.take count.toNat

/-- Receives the labels of the given number of inputs. No message is exchanged if there are
none. -/
def receiveInputLabels (count : UInt64) : Session (Evaluator suite) (List Label) := do
  if count = 0 then
    return []
  let choices ← takeChoices count
  Session.zoom Evaluator.transfer (fun transfer evaluator => { evaluator with transfer })
    (LabelTransfer.receive choices)

/-- Makes a batch the current one. -/
def load (batch : BatchPair) (labels : List Label) : Session (Evaluator suite) Unit := do
  let evaluator ← get
  Session.allowed (evaluator.checkPosition batch.gates)
  let reader ← Session.allowed (BatchReader.ofBatch batch labels)
  set { evaluator with
    machine := { evaluator.machine with backend := { evaluator.machine.backend with reader } }
    nextBatch := evaluator.nextBatch + 1 }

/-- Executes one slice. -/
def executeSlice (task : Task) : Session (Evaluator suite) Break := fun evaluator =>
  let (outcome, machine) := Machine.execute (EvaluationState.backend suite.pad)
    task.program task.settings.timeSlice.toNat evaluator.machine
  .done (outcome, { evaluator with machine })

/-- The current batch must have been used up. -/
def finishBatch : Session (Evaluator suite) Unit := do
  Session.allowed (← get).machine.backend.reader.finish

/-- Goes back to the instruction before the current one. -/
def rewind : Session (Evaluator suite) Unit :=
  modify fun evaluator =>
    { evaluator with machine.processor := evaluator.machine.processor.rewind }

/-- Opens the values that are not open yet. -/
def sendOpenings : Session (Evaluator suite) Unit := do
  let openings ← modifyGet fun evaluator =>
    let (openings, processor) := evaluator.machine.processor.takeOpenings
    (openings, { evaluator with machine := { evaluator.machine with processor } })
  Session.send .openings Layout.fixed.openings openings

/-- Opens the last values. The result is what the evaluator reports. -/
def conclude : Session (Evaluator suite) Outputs := do
  sendOpenings
  let machine := (← get).machine
  return { revealed := machine.processor.log.revealed
           evaluatorOnly := machine.backend.outputs.toList }

/-- One slice in continuous mode. -/
def sliceContinuous (task : Task) : Session (Evaluator suite) (Next Unit Outputs) := do
  match ← BatchStream.receive with
  | none => throw (.violation .unexpectedDone)
  | some batch =>
      Session.allowed ((← get).checkPosition batch.gates)
      let labels ← receiveInputLabels batch.gates.evaluatorInputs
      load batch labels
      let ending ← executeSlice task
      finishBatch
      match ending with
      | .restart =>
          rewind
          sendOpenings
          return .again ()
      | .time => return .again ()
      | .done =>
          match ← BatchStream.receive with
          | some _ => throw (.violation .missingDone)
          | none => return .finish (← conclude)

/-- An evaluator in buffered mode, with what it has stored. -/
abbrev Buffering (suite : Suite) := Evaluator suite × StoredRun

/-- A session of the evaluator, with what it has stored. -/
def withEvaluator {α : Type} (session : Session (Evaluator suite) α) :
    Session (Buffering suite) α :=
  Session.zoom Prod.fst (fun evaluator state => (evaluator, state.2)) session

/-- Receives and stores the input labels of the batches that have inputs. -/
def storeInputLabels : (counts : List UInt64) → Session (Buffering suite) Unit
  | [] => return ()
  | count :: rest => do
      let labels ← withEvaluator (receiveInputLabels count)
      modify fun (evaluator, stored) => (evaluator, stored.pushInputLabels labels)
      storeInputLabels rest

/-- Stores the next batch. After the last one the input labels are received, and the result
tells that storing is over. -/
def storeBatch : Session (Buffering suite) Bool := do
  match ← BatchStream.receive with
  | some batch =>
      let (evaluator, stored) ← get
      let (outcome, stored) := stored.push batch
      set (evaluator, stored)
      match outcome with
      | .ok () => return false
      | .error error => throw (.store error)
  | none =>
      let counts ← modifyGet fun (evaluator, stored) =>
        let (counts, stored) := stored.takeInputCounts
        (counts, evaluator, stored)
      storeInputLabels counts
      return true

/-- Replays one slice from the stored batches. -/
def replaySlice (task : Task) : Session (Buffering suite) (Option Outputs) := do
  let (evaluator, stored) ← get
  let (outcome, stored) := stored.pop evaluator.nextBatch
  set (evaluator, stored)
  match outcome with
  | .error error => throw error
  | .ok (batch, labels) =>
      withEvaluator (load batch labels)
      match ← withEvaluator (executeSlice task) with
      | .restart => throw (.settings (.restartInBufferedMode .evaluator))
      | .time =>
          withEvaluator finishBatch
          return none
      | .done =>
          withEvaluator finishBatch
          let remaining := (← get).2.remaining
          if 0 < remaining then
            throw (.violation (.trailingBatches remaining))
          return some (← withEvaluator conclude)

/-- The store that the settings ask for. -/
def openStore (usable : String → Bool) (task : Task) :
    Session (LabelTransfer suite × suite.Generator) StoredRun :=
  match Storage.select usable task.settings.storeDirectory with
  | .ok storage => return .empty storage
  | .error error => throw (.store error)

/-- How far the evaluator has come between two rounds. -/
inductive Phase (suite : Suite) where
  | entering (generator : suite.Generator)
  /-- In continuous mode. -/
  | evaluating (evaluator : Evaluator suite)
  /-- In buffered mode, while batches arrive. -/
  | storing (state : Buffering suite)
  /-- In buffered mode, when everything has arrived. -/
  | replaying (state : Buffering suite)

/-- The rounds of the evaluator: its setup, and then one batch after the other. `usable` tells
which directories can hold a store. -/
def rounds (usable : String → Bool) (task : Task) : Rounds (Phase suite) (Except Error Outputs)
  | .entering generator =>
      Session.toRound
        (do
          let evaluator ← enter task
          match task.typed with
          | .continuous => return Next.again (Phase.evaluating evaluator)
          | .buffered => return Next.again (Phase.storing (evaluator, ← openStore usable task)))
        ({}, generator) fun _ phase => phase
  | .evaluating evaluator =>
      Session.toRound (sliceContinuous task) evaluator fun evaluator _ => .evaluating evaluator
  | .storing state =>
      Session.toRound (return Next.again (← storeBatch)) state fun state isLast =>
        if isLast then .replaying state else .storing state
  | .replaying state =>
      Session.toRound
        (do
          match ← replaySlice task with
          | none => return Next.again ()
          | some outputs => return Next.finish outputs)
        state fun state _ => .replaying state

end Evaluator

end Garbling
