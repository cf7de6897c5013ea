import Mathlib
import Garbling.Proofs.Batches
import Garbling.Proofs.Turns
import Garbling.Proofs.Setup

/-!
# One slice in continuous mode

The garbler sends the batch of a slice and serves the inputs that belong to it; the evaluator
receives both and executes the slice. What follows depends on how the slice has ended, for both
parties in the same way.
-/

namespace Garbling

open Session

variable {suite : Suite} {α β γ δ τ : Type}

/-- The batch of a draft. -/
def Draft.batch (draft : Draft) (number : UInt64) : BatchPair := (draft.take number 0).1

/-- What the batch of a draft looks like in a transcript. -/
def Draft.entries (draft : Draft) (number : UInt64) : List Entry := (draft.batch number).entries

theorem Draft.writable_batch {draft : Draft} (number : UInt64)
    (gates : draft.amount .gate < UInt64.size) (inputs : draft.amount .garblerInput < UInt64.size) :
    (draft.batch number).Writable :=
  ⟨gates, inputs⟩

theorem Draft.Small.writable {draft : Draft} (small : draft.Small) (number : UInt64) :
    (draft.batch number).Writable :=
  writable_batch number (small .gate Item.noConfusion) (small .garblerInput Item.noConfusion)

namespace Garbler

variable {task : Task} {garbler : Garbler suite}

theorem executeSlice_succeeds {ending : Break} {after : Machine Label (GarblingState suite)}
    (executes : Machine.execute (GarblingState.backend suite garbler.offset) task.program
      task.settings.timeSlice.toNat garbler.machine = (.ok ending, after)) :
    (executeSlice task).Succeeds garbler [] ending { garbler with machine := after } := by
  simp only [Succeeds, executeSlice, executes]
  exact .refl

/-- The garbler once the batch of its slice is on its way. -/
def afterBatch (garbler : Garbler suite) : Garbler suite :=
  { garbler with
    machine := garbler.machine.emptied
    nextBatch := garbler.nextBatch + 1
    transfer := garbler.transfer.enqueue garbler.machine.backend.draft.evaluatorInputs.toList }

/-- The evaluator receives the batch of the slice. -/
theorem agree_sendSlice {evaluator : τ}
    (writable : (garbler.machine.backend.draft.batch garbler.nextBatch).Writable) :
    Agree sendSlice BatchStream.receive garbler evaluator
      (BatchStream.messages (garbler.machine.backend.draft.batch garbler.nextBatch))
      ((), garbler.afterBatch)
      (some (garbler.machine.backend.draft.batch garbler.nextBatch).onArrival, evaluator) := by
  apply Agree.bind_garbler (succeeds_get garbler)
  apply Agree.bind_garbler (succeeds_set _ _)
  apply Agree.garbler_then (BatchStream.agree_batch writable _ _)
  exact succeeds_modify _ _

/-- The garbler after a slice in continuous mode. -/
def afterSlice (garbler : Garbler suite) (transfer : LabelTransfer suite)
    (machine : Machine Label (GarblingState suite)) : Garbler suite :=
  { garbler with transfer, machine := machine.emptied, nextBatch := garbler.nextBatch + 1 }

/-- The garbler with another log. -/
def opened (garbler : Garbler suite) (log : RevealLog) : Garbler suite :=
  { garbler with machine.processor.log := log }

/-- What the garbler does at the beginning of a slice in continuous mode, and goes on with. -/
def onSlice (task : Task) (next : Break → Session (Garbler suite) α) :
    Session (Garbler suite) α := do
  let ending ← executeSlice task
  sendSlice
  serveInputs
  next ending

end Garbler

namespace Evaluator

variable {task : Task} {evaluator : Evaluator suite}

theorem executeSlice_succeeds {ending : Break} {after : Machine Label EvaluationState}
    (executes : Machine.execute (EvaluationState.backend suite.pad) task.program
      task.settings.timeSlice.toNat evaluator.machine = (.ok ending, after)) :
    (executeSlice task).Succeeds evaluator [] ending { evaluator with machine := after } := by
  simp only [Succeeds, executeSlice, executes]
  exact .refl

/-- A batch has the right position if its number and its first gate are expected. -/
theorem checkPosition_eq_ok {gates : GateBatch} :
    evaluator.checkPosition gates = .ok () ↔
      gates.number = evaluator.nextBatch ∧
        gates.firstGate = evaluator.machine.backend.gateCount := by
  unfold checkPosition
  split
  · next other => simp [other]
  · next same =>
      split
      · next other => simp [other]
      · next first => simp [not_not.mp same, not_not.mp first]

theorem load_succeeds {batch : BatchPair} {labels : List Label} {reader : BatchReader}
    (position : evaluator.checkPosition batch.gates = .ok ())
    (made : BatchReader.ofBatch batch labels = .ok reader) :
    (load batch labels).Succeeds evaluator [] ()
      { evaluator with
        machine := evaluator.machine.loaded reader
        nextBatch := evaluator.nextBatch + 1 } := by
  apply Succeeds.bind (succeeds_get evaluator)
  apply Succeeds.bind (succeeds_allowed position evaluator)
  apply Succeeds.bind (succeeds_allowed made evaluator)
  exact succeeds_set _ _

theorem finishBatch_succeeds (finished : evaluator.machine.backend.reader.finish = .ok ()) :
    finishBatch.Succeeds evaluator [] () evaluator := by
  apply Succeeds.bind (succeeds_get evaluator)
  exact succeeds_allowed finished evaluator

theorem takeChoices_succeeds {count : UInt64} (enough : count.toNat ≤ evaluator.inputs.length) :
    (takeChoices count).Succeeds evaluator [] (evaluator.inputs.take count.toNat)
      { evaluator with inputs := evaluator.inputs.drop count.toNat } := by
  apply Succeeds.bind (succeeds_get evaluator)
  simp only [if_neg (Nat.not_lt.mpr enough)]
  apply Succeeds.bind (succeeds_modify _ evaluator)
  exact succeeds_pure _ _

/-- The evaluator after a slice in continuous mode for which it had the given number of inputs. -/
def afterSlice (evaluator : Evaluator suite) (transfer : LabelTransfer suite)
    (machine : Machine Label EvaluationState) (count : Nat) : Evaluator suite :=
  { evaluator with
    transfer
    machine
    inputs := evaluator.inputs.drop count
    nextBatch := evaluator.nextBatch + 1 }

/-- The evaluator with another log. -/
def opened (evaluator : Evaluator suite) (log : RevealLog) : Evaluator suite :=
  { evaluator with machine.processor.log := log }

/-- What the evaluator does with a batch and the labels of its inputs, and goes on with. -/
def onLabels (task : Task) (next : Break → Session (Evaluator suite) α) (batch : BatchPair)
    (labels : List Label) : Session (Evaluator suite) α := do
  load batch labels
  let ending ← executeSlice task
  finishBatch
  next ending

/-- What the evaluator does with a batch in continuous mode, and goes on with. -/
def onBatch (task : Task) (next : Break → Session (Evaluator suite) α) (batch : BatchPair) :
    Session (Evaluator suite) α := do
  Session.allowed ((← get).checkPosition batch.gates)
  let labels ← receiveInputLabels batch.gates.evaluatorInputs
  onLabels task next batch labels

/-- What the evaluator does at the beginning of a slice in continuous mode, and goes on with. -/
def onSlice (task : Task) (next : Break → Session (Evaluator suite) α) :
    Session (Evaluator suite) α := do
  match ← BatchStream.receive with
  | none => throw (.violation .unexpectedDone)
  | some batch => onBatch task next batch

end Evaluator

/-- The evaluator learns the labels of its next inputs, which the garbler serves in one round. -/
theorem agree_answer (lawful : suite.Lawful) {offset : Offset} {garbler : LabelTransfer suite}
    {evaluator : Evaluator suite} {zeroLabels : List Label}
    (linked : LabelTransfer.Linked offset garbler evaluator.transfer) (some : zeroLabels ≠ [])
    (enough : zeroLabels.length ≤ evaluator.inputs.length)
    (short : zeroLabels.length < UInt64.size) (rest : List (List Label)) :
    ∃ messages garblerAfter evaluatorTransfer,
      Agree (LabelTransfer.serveBatch zeroLabels rest)
        (Evaluator.receiveInputLabels (UInt64.ofNat zeroLabels.length)) garbler evaluator messages
        ((), garblerAfter)
        (zeroLabels.zipWith (·.active offset ·) evaluator.inputs,
          { evaluator with
            transfer := evaluatorTransfer
            inputs := evaluator.inputs.drop zeroLabels.length }) ∧
      LabelTransfer.Linked offset garblerAfter evaluatorTransfer ∧ garblerAfter.queued = rest ∧
      Transcript.Carries messages [] := by
  have count : (UInt64.ofNat zeroLabels.length).toNat = zeroLabels.length :=
    UInt64.toNat_ofNat_of_lt' short
  have positive : UInt64.ofNat zeroLabels.length ≠ 0 := by
    intro nothing
    rw [nothing] at count
    exact some (List.eq_nil_of_length_eq_zero count.symm)
  have chosen : (evaluator.inputs.take zeroLabels.length).length = zeroLabels.length :=
    List.length_take_of_le enough
  obtain ⟨masked, garblerAfter, evaluatorTransfer, agree, linkedAfter, served, length⟩ :=
    linked.agree_serveBatch lawful chosen.symm (chosen.trans_lt short) rest
  have nonempty : masked ≠ [] := by
    rintro rfl
    exact some (List.eq_nil_of_length_eq_zero length.symm)
  refine ⟨[Layout.fixed.labels.encode masked], garblerAfter, evaluatorTransfer, ?_, linkedAfter,
    served, Transcript.carries_labels nonempty⟩
  have choices := Evaluator.takeChoices_succeeds (count.trans_le enough)
  rw [count] at choices
  rw [zipWith_take_length (·.active offset ·) zeroLabels evaluator.inputs] at agree
  rw [Evaluator.receiveInputLabels, if_neg positive]
  apply Agree.bind_evaluator choices
  apply Agree.zoom_evaluator
  exact agree

/-- The evaluator learns the labels of its next inputs, if the batch has any. -/
theorem agree_serveInputs (lawful : suite.Lawful) {garbler : Garbler suite}
    {evaluator : Evaluator suite} {zeroLabels : List Label}
    (linked : LabelTransfer.Linked garbler.offset garbler.transfer evaluator.transfer)
    (queued : garbler.transfer.queued = if zeroLabels.isEmpty then [] else [zeroLabels])
    (enough : zeroLabels.length ≤ evaluator.inputs.length)
    (short : zeroLabels.length < UInt64.size) :
    ∃ messages garblerTransfer evaluatorTransfer,
      Agree Garbler.serveInputs (Evaluator.receiveInputLabels (UInt64.ofNat zeroLabels.length))
        garbler evaluator messages ((), { garbler with transfer := garblerTransfer })
        (zeroLabels.zipWith (·.active garbler.offset ·) evaluator.inputs,
          { evaluator with
            transfer := evaluatorTransfer
            inputs := evaluator.inputs.drop zeroLabels.length }) ∧
      LabelTransfer.Linked garbler.offset garblerTransfer evaluatorTransfer ∧
      garblerTransfer.queued = [] ∧ Transcript.Carries messages [] := by
  cases zeroLabels with
  | nil =>
      refine ⟨[], garbler.transfer, evaluator.transfer, ?_, linked, queued, .nil⟩
      apply Agree.zoom_garbler
      apply Agree.bind_garbler (succeeds_get garbler.transfer)
      rw [queued]
      exact agree_of_silent (succeeds_pure _ _) (succeeds_pure _ _)
  | cons zero others =>
      obtain ⟨messages, garblerTransfer, evaluatorTransfer, agree, linkedAfter, served, carries⟩ :=
        agree_answer lawful linked (List.cons_ne_nil zero others) enough short []
      refine ⟨messages, garblerTransfer, evaluatorTransfer, ?_, linkedAfter, served, carries⟩
      apply Agree.zoom_garbler
      apply Agree.bind_garbler (succeeds_get garbler.transfer)
      rw [queued]
      simp only [List.isEmpty_cons, Bool.false_eq_true, if_false, LabelTransfer.serveAll_cons]
      exact Agree.garbler_then agree (succeeds_pure _ _)

/-- The garbler fills in the values that the evaluator opens. -/
theorem agree_openings {garbler : Garbler suite} {evaluator : Evaluator suite}
    (opens : garbler.machine.processor.log.applyOpenings
      evaluator.machine.processor.log.takeOpenings.1 = .ok evaluator.machine.processor.log.opening)
    (few : evaluator.machine.processor.log.takeOpenings.1.length < UInt64.size) :
    Agree Garbler.receiveOpenings Evaluator.sendOpenings garbler evaluator []
      ((), garbler.opened evaluator.machine.processor.log.opening)
      ((), evaluator.opened evaluator.machine.processor.log.opening) := by
  have applied : garbler.machine.processor.applyOpenings
      evaluator.machine.processor.log.takeOpenings.1 =
      .ok { garbler.machine.processor with log := evaluator.machine.processor.log.opening } := by
    rw [Processor.applyOpenings, opens]
    rfl
  apply Agree.bind_evaluator (succeeds_modifyGet _ evaluator)
  apply Agree.garbler_then (agree_receive_send (Layout.sound_fixed.openings few))
  apply Succeeds.bind (succeeds_get garbler)
  apply Succeeds.bind (succeeds_allowed applied garbler)
  exact succeeds_set _ _

/-- The evaluator opens the last values, and reports. -/
theorem agree_conclude {garbler : Garbler suite} {evaluator : Evaluator suite}
    (opens : garbler.machine.processor.log.applyOpenings
      evaluator.machine.processor.log.takeOpenings.1 = .ok evaluator.machine.processor.log.opening)
    (few : evaluator.machine.processor.log.takeOpenings.1.length < UInt64.size) :
    Agree Garbler.receiveOpenings Evaluator.conclude garbler evaluator []
      ((), garbler.opened evaluator.machine.processor.log.opening)
      ({ revealed := evaluator.machine.processor.log.opening.revealed
         evaluatorOnly := evaluator.machine.backend.outputs.toList },
        evaluator.opened evaluator.machine.processor.log.opening) := by
  apply Agree.evaluator_then (agree_openings opens few)
  apply Succeeds.bind (succeeds_get _)
  exact succeeds_pure _ _

/-- Nothing is queued but the labels of the slice. -/
theorem Partners.queued {garbler : Garbler suite} {evaluator : Evaluator suite}
    (partners : Partners garbler evaluator) (zeroLabels : List Label) :
    (garbler.transfer.enqueue zeroLabels).queued =
      if zeroLabels.isEmpty then [] else [zeroLabels] := by
  rw [LabelTransfer.enqueue_eq, partners.served, List.nil_append]

theorem LabelTransfer.Linked.enqueue {offset : Offset} {garbler evaluator : LabelTransfer suite}
    (linked : LabelTransfer.Linked offset garbler evaluator) (zeroLabels : List Label) :
    LabelTransfer.Linked offset (garbler.enqueue zeroLabels) evaluator := by
  rw [LabelTransfer.enqueue_eq]
  exact linked

/-- A batch arrives with as many masks as can be counted by a word. -/
theorem Draft.onArrival_batch (draft : Draft) (number : UInt64) :
    (draft.batch number).onArrival = draft.arrived.batch number := rfl

section

variable {garblerTask evaluatorTask : Task} {garbler : Garbler suite} {evaluator : Evaluator suite}
  {ending : Break} {machine : Machine Label (GarblingState suite)}
  {garblerNext : Break → Session (Garbler suite) γ}
  {evaluatorNext : Break → Session (Evaluator suite) δ}

/-- The evaluator receives the batch of the garbler's slice. -/
theorem Partners.together_batch (partners : Partners garbler evaluator)
    (garbles : Machine.execute (GarblingState.backend suite garbler.offset) garblerTask.program
      garblerTask.settings.timeSlice.toNat garbler.machine = (.ok ending, machine))
    (first : machine.backend.draft.firstGate = evaluator.machine.backend.gateCount)
    (small : machine.backend.draft.Small) :
    Process.Together (Garbler.onSlice garblerTask garblerNext garbler)
      (Evaluator.onSlice evaluatorTask evaluatorNext evaluator)
      (BatchStream.messages (machine.backend.draft.batch garbler.nextBatch))
      ((Garbler.serveInputs >>= fun _ => garblerNext ending)
        (Garbler.afterBatch { garbler with machine }))
      ((Evaluator.receiveInputLabels
          (UInt64.ofNat machine.backend.draft.evaluatorInputs.toList.length) >>=
        Evaluator.onLabels evaluatorTask evaluatorNext
          (machine.backend.draft.arrived.batch garbler.nextBatch)) evaluator) := by
  have executed : (Garbler.executeSlice garblerTask).Succeeds garbler [] ending
      { garbler with machine } := Garbler.executeSlice_succeeds garbles
  have sent : Agree Garbler.sendSlice BatchStream.receive { garbler with machine } evaluator
      (BatchStream.messages (machine.backend.draft.batch garbler.nextBatch))
      ((), Garbler.afterBatch { garbler with machine })
      (some (machine.backend.draft.arrived.batch garbler.nextBatch), evaluator) :=
    Garbler.agree_sendSlice (small.writable garbler.nextBatch)
  have position : evaluator.checkPosition
      (machine.backend.draft.arrived.batch garbler.nextBatch).gates = .ok () :=
    Evaluator.checkPosition_eq_ok.mpr ⟨partners.number, first⟩
  unfold Garbler.onSlice Evaluator.onSlice
  rw [bind_apply_of_succeeds executed, ← List.append_nil (BatchStream.messages _)]
  refine Process.Together.trans sent.together ?_
  dsimp only
  unfold Evaluator.onBatch
  rw [bind_apply_of_succeeds (succeeds_get evaluator),
    bind_apply_of_succeeds (succeeds_allowed position evaluator)]
  exact .refl

/-- The evaluator learns the labels of its inputs for the slice. -/
theorem Partners.together_labels (partners : Partners garbler evaluator) (lawful : suite.Lawful)
    (small : machine.backend.draft.Small)
    (enough : machine.backend.draft.evaluatorInputs.size ≤ evaluator.inputs.length)
    (next : List Label → Session (Evaluator suite) δ) :
    ∃ messages garblerTransfer evaluatorTransfer,
      Process.Together
        ((Garbler.serveInputs >>= fun _ => garblerNext ending)
          (Garbler.afterBatch { garbler with machine }))
        ((Evaluator.receiveInputLabels
          (UInt64.ofNat machine.backend.draft.evaluatorInputs.toList.length) >>= next) evaluator)
        messages (garblerNext ending (garbler.afterSlice garblerTransfer machine))
        (next (machine.backend.draft.select garbler.offset evaluator.inputs)
          { evaluator with
            transfer := evaluatorTransfer
            inputs := evaluator.inputs.drop machine.backend.draft.evaluatorInputs.size }) ∧
      Transcript.Carries messages [] ∧
      LabelTransfer.Linked garbler.offset garblerTransfer evaluatorTransfer ∧
      garblerTransfer.queued = [] := by
  let sending : Garbler suite := Garbler.afterBatch { garbler with machine }
  have still : LabelTransfer.Linked sending.offset sending.transfer evaluator.transfer :=
    partners.linked.enqueue _
  have queued : sending.transfer.queued =
      if machine.backend.draft.evaluatorInputs.toList.isEmpty then []
      else [machine.backend.draft.evaluatorInputs.toList] := partners.queued _
  obtain ⟨messages, garblerTransfer, evaluatorTransfer, served, linked, nothing, carries⟩ :=
    agree_serveInputs lawful still queued enough (small .evaluatorInput (by decide))
  exact ⟨messages, garblerTransfer, evaluatorTransfer, served.together, carries, linked, nothing⟩

end

/-- The evaluator makes the batch of a draft the current one. -/
theorem Evaluator.load_draft {evaluator : Evaluator suite} {draft : Draft} {number : UInt64}
    {labels : List Label} (next : number = evaluator.nextBatch)
    (first : draft.firstGate = evaluator.machine.backend.gateCount) (small : draft.Small)
    (count : labels.length = draft.evaluatorInputs.size) :
    (load (draft.batch number) labels).Succeeds evaluator [] ()
      { evaluator with
        machine := evaluator.machine.loaded (draft.reader labels)
        nextBatch := evaluator.nextBatch + 1 } :=
  load_succeeds (checkPosition_eq_ok.mpr ⟨next, first⟩)
    (draft.ofBatch_take number 0 count (small .evaluatorInput (by decide)))

/-- The items of a portion's draft can be counted by words. -/
theorem Portion.small {offset : Offset} {program : Program} {budget : Nat} {ending : Break}
    {inputs : List Bool} {garbler garblerAfter : Machine Label (GarblingState suite)}
    {evaluator evaluatorAfter : Machine Label EvaluationState}
    (portion : Portion suite offset program budget garbler evaluator inputs ending garblerAfter
      evaluatorAfter) : garblerAfter.backend.draft.Small :=
  fun item _ => portion.short item

/-- The batch of a portion can be written down and read back. -/
theorem Portion.countable {offset : Offset} {program : Program} {budget : Nat} {ending : Break}
    {inputs : List Bool} {garbler garblerAfter : Machine Label (GarblingState suite)}
    {evaluator evaluatorAfter : Machine Label EvaluationState}
    (portion : Portion suite offset program budget garbler evaluator inputs ending garblerAfter
      evaluatorAfter) (number : UInt64) :
    (garblerAfter.backend.draft.batch number).Countable :=
  ⟨Draft.writable_batch number (portion.short .gate) (portion.short .garblerInput),
    portion.short .mask⟩

/-- Partners execute a slice, and go on with what follows. They stay partners, and the messages
of the garbler carry the batch. -/
theorem Portion.together (lawful : suite.Lawful) {garblerTask evaluatorTask : Task}
    {garbler : Garbler suite} {evaluator : Evaluator suite} {ending : Break}
    {garblerAfter : Machine Label (GarblingState suite)}
    {evaluatorAfter : Machine Label EvaluationState} (partners : Partners garbler evaluator)
    (alike : Alike garblerTask evaluatorTask)
    (portion : Portion suite garbler.offset garblerTask.program
      garblerTask.settings.timeSlice.toNat garbler.machine evaluator.machine evaluator.inputs ending
      garblerAfter evaluatorAfter)
    (garblerNext : Break → Session (Garbler suite) γ)
    (evaluatorNext : Break → Session (Evaluator suite) δ) :
    ∃ messages garblerTransfer evaluatorTransfer,
      Process.Together (Garbler.onSlice garblerTask garblerNext garbler)
        (Evaluator.onSlice evaluatorTask evaluatorNext evaluator) messages
        (garblerNext ending (garbler.afterSlice garblerTransfer garblerAfter))
        (evaluatorNext ending (evaluator.afterSlice evaluatorTransfer evaluatorAfter
          garblerAfter.backend.draft.evaluatorInputs.size)) ∧
      Transcript.Carries messages (garblerAfter.backend.draft.entries garbler.nextBatch) ∧
      Partners (garbler.afterSlice garblerTransfer garblerAfter)
        (evaluator.afterSlice evaluatorTransfer evaluatorAfter
          garblerAfter.backend.draft.evaluatorInputs.size) := by
  have batch := @Partners.together_batch suite γ δ garblerTask evaluatorTask _ _ _ _ garblerNext
    evaluatorNext partners portion.garbles portion.first portion.small
  obtain ⟨messages, garblerTransfer, evaluatorTransfer, labels, carries, linked, nothing⟩ :=
    partners.together_labels lawful portion.small portion.enough
      (Evaluator.onLabels evaluatorTask evaluatorNext
        (garblerAfter.backend.draft.arrived.batch garbler.nextBatch))
  rw [Draft.arrived_eq (portion.short .mask)] at batch labels
  let choosing : Evaluator suite :=
    { evaluator with
      transfer := evaluatorTransfer
      inputs := evaluator.inputs.drop garblerAfter.backend.draft.evaluatorInputs.size }
  let reading : Evaluator suite :=
    { choosing with
      machine := evaluator.machine.loaded (garblerAfter.backend.draft.reader
        (garblerAfter.backend.draft.select garbler.offset evaluator.inputs))
      nextBatch := evaluator.nextBatch + 1 }
  have loaded : (Evaluator.load (garblerAfter.backend.draft.batch garbler.nextBatch)
      (garblerAfter.backend.draft.select garbler.offset evaluator.inputs)).Succeeds choosing [] ()
      reading :=
    Evaluator.load_draft partners.number portion.first portion.small
      (by simp [Draft.select, Nat.min_eq_left portion.enough])
  have followed := portion.evaluates
  rw [alike.program, alike.timeSlice] at followed
  have evaluated : (Evaluator.executeSlice evaluatorTask).Succeeds reading [] ending
      { reading with machine := evaluatorAfter } := Evaluator.executeSlice_succeeds followed
  have complete : Evaluator.finishBatch.Succeeds { reading with machine := evaluatorAfter } [] ()
      { reading with machine := evaluatorAfter } := Evaluator.finishBatch_succeeds portion.finished
  have read : Evaluator.onLabels evaluatorTask evaluatorNext
      (garblerAfter.backend.draft.batch garbler.nextBatch)
      (garblerAfter.backend.draft.select garbler.offset evaluator.inputs) choosing =
      evaluatorNext ending { reading with machine := evaluatorAfter } := by
    unfold Evaluator.onLabels
    rw [bind_apply_of_succeeds loaded, bind_apply_of_succeeds evaluated,
      bind_apply_of_succeeds complete]
  refine ⟨_, garblerTransfer, evaluatorTransfer, batch.trans (read ▸ labels), ?_, linked, nothing,
    congrArg (· + 1) partners.number⟩
  have whole := (Transcript.carries_batch (portion.countable garbler.nextBatch)).append carries
  rwa [List.append_nil] at whole

end Garbling
