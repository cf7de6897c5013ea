import Garbling.Batch.Draft
import Garbling.Batch.Stream
import Garbling.Machine.Execution
import Garbling.Role.Handshake
import Garbling.Role.Task
import Garbling.Transfer.InputLabels

/-!
# The garbler

The garbler executes the program on zero labels, slice by slice, and sends a batch for each
slice. In continuous mode it serves the inputs of the evaluator after every batch, and a slice
that has to be restarted makes it wait for the values revealed so far. In buffered mode it
sends all batches before it serves any inputs, and there are no restarts.
-/

namespace Garbling

/-- What garbling changes besides the registers and the memory. -/
structure GarblingState (suite : Suite) where
  generator : suite.Generator
  /-- The input bits that have not been used. -/
  inputs : List Bool
  draft : Draft := {}
  /-- The number of gates garbled so far. -/
  gateCount : UInt64 := 0

namespace GarblingState

variable {suite : Suite}

/-- A random zero label. -/
def drawLabel : Action (GarblingState suite) Label :=
  modifyGet fun state =>
    let (label, generator) := suite.label state.generator
    (label, { state with generator })

/-- Adds to the draft of the current batch. -/
def edit (change : Draft → Draft) : Action (GarblingState suite) Unit :=
  modify fun state => { state with draft := change state.draft }

/-- Adds the masks of some wires. -/
def addMasks (zeroLabels : List Label) : Action (GarblingState suite) Unit :=
  edit fun draft => zeroLabels.foldl (fun draft zero => draft.addMask ⟨zero.color⟩) draft

/-- The garbler's treatment of the gates: its wires are zero labels. -/
def backend (suite : Suite) (offset : Offset) : Backend Label (GarblingState suite) where
  garblerInput := do
    match (← get).inputs with
    | [] => throw (.execution .missingGarblerInput)
    | bit :: rest =>
        modify ({ · with inputs := rest })
        let zero ← drawLabel
        edit (·.addGarblerInput (zero ^^^ offset.times bit))
        return zero
  evaluatorInput := do
    let zero ← drawLabel
    edit (·.addEvaluatorInput zero)
    return zero
  and a b := do
    let index := (← get).gateCount
    let (gate, zero) := Gate.garble suite.pad offset index a b
    modify ({ · with gateCount := index + 1 })
    edit (·.addGate gate)
    return zero
  xor a b := a ^^^ b
  not a := garbleNot offset a
  reveal zeroLabels := do
    addMasks zeroLabels
    return none
  output zeroLabels := addMasks zeroLabels

end GarblingState

/-- The garbler after its setup. -/
structure Garbler (suite : Suite) where
  offset : Offset
  transfer : LabelTransfer suite
  machine : Machine Label (GarblingState suite)
  /-- The number of the next batch. -/
  nextBatch : UInt64 := 0

namespace Garbler

variable {suite : Suite}

/-- Agrees on the settings, draws the offset, and sets up the transfer of labels. -/
def enter (task : Task) : Session (LabelTransfer suite × suite.Generator) (Garbler suite) := do
  handshake task.typed task.settings
  let offset ← modifyGet fun (transfer, generator) =>
    let (offset, generator) := suite.offset generator
    (offset, transfer, generator)
  LabelTransfer.setup (some offset)
  let (transfer, generator) ← get
  return { offset, transfer, machine := .start task.program { generator, inputs := task.inputs } }

/-- Executes one slice. -/
def executeSlice (task : Task) : Session (Garbler suite) Break := fun garbler =>
  let (outcome, machine) := Machine.execute (GarblingState.backend suite garbler.offset)
    task.program task.settings.timeSlice.toNat garbler.machine
  .done (outcome, { garbler with machine })

/-- Sends the batch of the slice, and queues the labels of the evaluator's inputs. -/
def sendSlice : Session (Garbler suite) Unit := do
  let garbler ← get
  let state := garbler.machine.backend
  let (batch, zeroLabels, draft) := state.draft.take garbler.nextBatch state.gateCount
  set { garbler with
    machine := { garbler.machine with backend := { state with draft } }
    nextBatch := garbler.nextBatch + 1 }
  BatchStream.send batch
  modify fun garbler => { garbler with transfer := garbler.transfer.enqueue zeroLabels }

/-- Serves the inputs of the evaluator that are queued. -/
def serveInputs : Session (Garbler suite) Unit :=
  Session.zoom Garbler.transfer (fun transfer garbler => { garbler with transfer })
    LabelTransfer.serve

/-- Goes back to the instruction before the current one. -/
def rewind : Session (Garbler suite) Unit :=
  modify fun garbler =>
    { garbler with machine.processor := garbler.machine.processor.rewind }

/-- Waits for the values that are not open yet. -/
def receiveOpenings : Session (Garbler suite) Unit := do
  let openings ← Session.receive .openings Layout.fixed.openings
  let garbler ← get
  let processor ← Session.allowed (garbler.machine.processor.applyOpenings openings)
  set { garbler with machine := { garbler.machine with processor } }

/-- What the garbler reports at the end. -/
def outputs (garbler : Garbler suite) : Outputs :=
  { revealed := garbler.machine.processor.log.revealed }

/-- One slice in continuous mode. -/
def sliceContinuous (task : Task) : Session (Garbler suite) (Next Unit Outputs) := do
  let ending ← executeSlice task
  sendSlice
  serveInputs
  match ending with
  | .restart =>
      rewind
      receiveOpenings
      return .again ()
  | .time => return .again ()
  | .done =>
      BatchStream.sendDone
      receiveOpenings
      return .finish (← get).outputs

/-- One slice in buffered mode. -/
def sliceBuffered (task : Task) : Session (Garbler suite) (Next Unit Outputs) := do
  match ← executeSlice task with
  | .restart => throw (.settings (.restartInBufferedMode .garbler))
  | .time =>
      sendSlice
      return .again ()
  | .done =>
      sendSlice
      BatchStream.sendDone
      serveInputs
      receiveOpenings
      return .finish (← get).outputs

/-- One slice in either mode. -/
def slice (task : Task) : Session (Garbler suite) (Next Unit Outputs) :=
  match task.typed with
  | .continuous => sliceContinuous task
  | .buffered => sliceBuffered task

/-- How far the garbler has come between two rounds. -/
inductive Phase (suite : Suite) where
  | entering (generator : suite.Generator)
  | slicing (garbler : Garbler suite)

/-- The rounds of the garbler: its setup, and then one slice after the other. -/
def rounds (task : Task) : Rounds (Phase suite) (Except Error Outputs)
  | .entering generator =>
      Session.toRound (return Next.again (← enter task)) ({}, generator)
        fun _ garbler => .slicing garbler
  | .slicing garbler => Session.toRound (slice task) garbler fun garbler _ => .slicing garbler

end Garbler

end Garbling
