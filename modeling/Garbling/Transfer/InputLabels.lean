import Garbling.Transfer.Extension

/-!
# Input labels

The garbler draws the labels of all input wires. Those of the evaluator's inputs wait in a
queue until the evaluator asks for them, one round of transfers for each batch; the evaluator
learns the label of each wire that its input bit selects.
-/

namespace Garbling

/-- One party's part in the transfer of input labels. -/
structure LabelTransfer (suite : Suite) where
  extension : Extension suite := .idle
  /-- The offset, once the garbler's side has been set up. -/
  offset : Option Offset := none
  /-- The zero labels that have not been transferred, batch by batch. -/
  queued : List (List Label) := []

namespace LabelTransfer

variable {suite : Suite}

/-- Sets up one side, once: the garbler's if there is an offset. -/
def setup (offset : Option Offset) : Session (LabelTransfer suite × suite.Generator) Unit := do
  Session.zoom (fun (transfer, generator) => (transfer.extension, generator))
    (fun (extension, generator) (transfer, _) => ({ transfer with extension }, generator))
    (Extension.setup offset)
  modify fun (transfer, generator) => ({ transfer with offset }, generator)

/-- Draws the two labels of a wire, the zero label first. -/
def derive (transfer : LabelTransfer suite) (generator : suite.Generator) :
    Except Violation (Label × Label) × suite.Generator :=
  match transfer.offset with
  | none => (.error .transferNotSetUp, generator)
  | some offset =>
      let (zero, generator) := suite.label generator
      (.ok (zero, zero ^^^ offset.toLabel), generator)

/-- Queues the zero labels of a batch, if it has any. -/
def enqueue (transfer : LabelTransfer suite) (zeroLabels : List Label) : LabelTransfer suite :=
  if zeroLabels.isEmpty then transfer
  else { transfer with queued := transfer.queued ++ [zeroLabels] }

/-- One round of transfers. -/
def extend (count : Nat) (choices : List Bool) : Session (LabelTransfer suite) (List Label) :=
  Session.zoom LabelTransfer.extension (fun extension transfer => { transfer with extension })
    (Extension.extend count choices)

/-- Transfers the labels of the given batches. Each batch leaves the queue first. -/
def serveAll : (batches : List (List Label)) → Session (LabelTransfer suite) Unit
  | [] => return ()
  | zeroLabels :: rest => do
      modify ({ · with queued := rest })
      let rows ← extend zeroLabels.length []
      Session.send .inputLabels Layout.fixed.labels (zeroLabels.zipWith (· ^^^ ·) rows)
      serveAll rest

/-- Transfers the labels of all queued batches, one round for each, in order. -/
def serve : Session (LabelTransfer suite) Unit := do
  serveAll (← get).queued

/-- Receives the labels that the choices select, one for each wire. -/
def receive (choices : List Bool) : Session (LabelTransfer suite) (List Label) := do
  let rows ← extend choices.length choices
  let masked ← Session.receiveList .inputLabels Layout.fixed.labels choices.length
  return masked.zipWith (· ^^^ ·) rows

/-- Receives the labels of some batches that have inputs, in order. -/
def receiveAll : (batches : List (List Bool)) → Session (LabelTransfer suite) (List (List Label))
  | [] => return []
  | choices :: rest => do
      let labels ← receive choices
      return labels :: (← receiveAll rest)

/-- A session that does not draw random bytes, beside the generator. -/
def withoutGenerator {α : Type} (session : Session (LabelTransfer suite) α) :
    Session (LabelTransfer suite × suite.Generator) α :=
  Session.zoom Prod.fst (fun transfer state => (transfer, state.2)) session

end LabelTransfer

end Garbling
