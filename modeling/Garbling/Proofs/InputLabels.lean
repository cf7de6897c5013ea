import Mathlib
import Garbling.Proofs.Extension
import Garbling.Transfer.InputLabels

/-!
# Transfers of input labels

Two sides that have been set up with one another stay linked from round to round. A round gives
the evaluator, for each of the garbler's zero labels, the label that its choice selects.
-/

namespace Garbling

namespace LabelTransfer

open Session

variable {suite : Suite} {offset : Offset} {garbler evaluator : LabelTransfer suite}

/-- The two sides have been set up with one another. -/
def Linked (offset : Offset) (garbler evaluator : LabelTransfer suite) : Prop :=
  ∃ senders receivers, garbler.extension = .sender offset senders ∧
    evaluator.extension = .receiver receivers ∧
    Extension.Synced offset 0 senders receivers ∧ receivers.length = columnCount

/-- The labels of a batch join the queue at its end, and a batch without any leaves it as it was. -/
theorem enqueue_eq (transfer : LabelTransfer suite) (zeroLabels : List Label) :
    transfer.enqueue zeroLabels =
      { transfer with
        queued := transfer.queued ++ if zeroLabels.isEmpty then [] else [zeroLabels] } := by
  unfold enqueue
  split
  · rw [List.append_nil]
  · rfl

/-- The setup of both sides. The garbler sends one message. -/
theorem agree_setup (lawful : suite.Lawful) (offset : Offset)
    (garblerGenerator evaluatorGenerator : suite.Generator) :
    ∃ message garbler evaluator evaluatorAfter,
      Agree (setup (some offset)) (setup none) ({}, garblerGenerator) ({}, evaluatorGenerator)
        [message]
        ((), garbler, BaseTransfer.afterScalars suite columnCount garblerGenerator)
        ((), evaluator, evaluatorAfter) ∧
      Linked offset garbler evaluator ∧ garbler.queued = [] := by
  obtain ⟨message, senders, receivers, evaluatorAfter, agree, synced, width⟩ :=
    Extension.agree_setup lawful offset garblerGenerator evaluatorGenerator
  refine ⟨message, { extension := .sender offset senders, offset := some offset },
    { extension := .receiver receivers }, evaluatorAfter, ?_,
    ⟨senders, receivers, rfl, rfl, synced, width⟩, rfl⟩
  refine Agree.garbler_then
    (Agree.evaluator_then (Agree.zoom_garbler (Agree.zoom_evaluator agree)) ?_) ?_
  · exact succeeds_modify _ _
  · exact succeeds_modify _ _

/-- Transfers the labels of one batch, and leaves the given batches in the queue. -/
def serveBatch (zeroLabels : List Label) (rest : List (List Label)) :
    Session (LabelTransfer suite) Unit := do
  modify ({ · with queued := rest })
  let rows ← extend zeroLabels.length []
  Session.send .inputLabels Layout.fixed.labels (zeroLabels.zipWith (· ^^^ ·) rows)

theorem serveAll_cons (zeroLabels : List Label) (rest : List (List Label)) :
    (serveAll (zeroLabels :: rest) : Session (LabelTransfer suite) Unit) =
      (serveBatch zeroLabels rest >>= fun _ => serveAll rest) := by
  simp only [serveAll, serveBatch, bind_assoc]

/-- What masks a label on its way leaves the label that the choice selects. -/
theorem zipWith_active (offset : Offset) {zeroLabels rows : List Label} {choices : List Bool}
    (first : zeroLabels.length = choices.length) (second : rows.length = choices.length) :
    (zeroLabels.zipWith (· ^^^ ·) (rows.zipWith (·.active offset ·) choices)).zipWith (· ^^^ ·)
      rows = zeroLabels.zipWith (·.active offset ·) choices := by
  induction choices generalizing zeroLabels rows with
  | nil =>
      obtain rfl := List.eq_nil_of_length_eq_zero first
      rfl
  | cons choice choices inductionHypothesis =>
      obtain ⟨zero, zeroLabels, rfl⟩ := List.exists_cons_of_length_eq_add_one first
      obtain ⟨row, rows, rfl⟩ := List.exists_cons_of_length_eq_add_one second
      have rest := inductionHypothesis (Nat.succ.inj first) (Nat.succ.inj second)
      have head : zero ^^^ row.active offset choice ^^^ row = zero.active offset choice := by
        rw [Label.active, Label.active, Label.xor_comm row, ← Label.xor_assoc,
          Label.xor_xor_cancel_right]
      simp only [List.zipWith_cons_cons, head, rest]

/-- One round. The evaluator learns the labels that its choices select; the garbler sends one
message. -/
theorem Linked.agree_serveBatch (linked : Linked offset garbler evaluator)
    (lawful : suite.Lawful) {zeroLabels : List Label} {choices : List Bool}
    (same : zeroLabels.length = choices.length) (short : choices.length < UInt64.size)
    (rest : List (List Label)) :
    ∃ masked garblerAfter evaluatorAfter,
      Agree (serveBatch zeroLabels rest) (receive choices) garbler evaluator
        [Layout.fixed.labels.encode masked] ((), garblerAfter)
        (zeroLabels.zipWith (·.active offset ·) choices, evaluatorAfter) ∧
      Linked offset garblerAfter evaluatorAfter ∧ garblerAfter.queued = rest ∧
      masked.length = zeroLabels.length := by
  obtain ⟨senders, receivers, sender, receiver, synced, width⟩ := linked
  obtain ⟨rows, sendersAfter, receiversAfter, agree, syncedAfter, widthAfter, length⟩ :=
    Extension.agree_extend lawful synced width short
  have count : (zeroLabels.zipWith (· ^^^ ·)
      (rows.zipWith (·.active offset ·) choices)).length = choices.length := by
    simp [same, length]
  have exact : Layout.fixed.labels.ExactAt
      (zeroLabels.zipWith (· ^^^ ·) (rows.zipWith (·.active offset ·) choices)) :=
    Layout.sound_fixed.labels (count.trans_lt short)
  refine ⟨_, { garbler with extension := .sender offset sendersAfter, queued := rest },
    { evaluator with extension := .receiver receiversAfter }, ?_,
    ⟨sendersAfter, receiversAfter, rfl, rfl, syncedAfter, widthAfter⟩, rfl, count.trans same.symm⟩
  have extended : Agree (extend zeroLabels.length []) (extend choices.length choices)
      { garbler with queued := rest } evaluator []
      (rows.zipWith (·.active offset ·) choices,
        { garbler with extension := .sender offset sendersAfter, queued := rest })
      (rows, { evaluator with extension := .receiver receiversAfter }) := by
    rw [same]
    apply Agree.zoom_garbler
    apply Agree.zoom_evaluator
    rw [sender, receiver]
    exact agree
  apply Agree.bind_garbler (succeeds_modify _ _)
  apply Agree.bind extended
  apply Agree.evaluator_then (agree_send_receiveList exact count)
  rw [zipWith_active offset same length]
  exact succeeds_pure _ _

end LabelTransfer

end Garbling
