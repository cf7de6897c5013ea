import Mathlib
import Garbling.Proofs.BufferedSlice

/-!
# Runs in buffered mode

A duet without restarts can be played in buffered mode as well: the garbler sends all batches
before the evaluator replays the first one. Both parties come to the same outputs, and the
garbler sends the same batches. A duet with a restart makes the garbler refuse.
-/

namespace Garbling

open Session

variable {suite : Suite} {usable : String → Bool}

/-- What both parties go through to the end of the program if no slice asks for a restart, with
their machines at the end. -/
inductive Uninterrupted (suite : Suite) (offset : Offset) (program : Program) (budget : Nat) :
    Machine Label (GarblingState suite) → Machine Label EvaluationState → (inputs : List Bool) →
      List Draft → Machine Label (GarblingState suite) → Machine Label EvaluationState → Prop
  | done {garbler garblerAfter : Machine Label (GarblingState suite)}
      {evaluator evaluatorAfter : Machine Label EvaluationState} {inputs : List Bool}
      (portion : Portion suite offset program budget garbler evaluator inputs .done garblerAfter
        evaluatorAfter) :
      Uninterrupted suite offset program budget garbler evaluator inputs
        [garblerAfter.backend.draft] garblerAfter evaluatorAfter
  | time {garbler garblerAfter garblerLast : Machine Label (GarblingState suite)}
      {evaluator evaluatorAfter evaluatorLast : Machine Label EvaluationState}
      {inputs : List Bool} {drafts : List Draft}
      (portion : Portion suite offset program budget garbler evaluator inputs .time garblerAfter
        evaluatorAfter)
      (rest : Uninterrupted suite offset program budget garblerAfter.emptied evaluatorAfter
        (inputs.drop garblerAfter.backend.draft.evaluatorInputs.size) drafts garblerLast
        evaluatorLast) :
      Uninterrupted suite offset program budget garbler evaluator inputs
        (garblerAfter.backend.draft :: drafts) garblerLast evaluatorLast

section

variable {offset : Offset} {program : Program} {budget : Nat}
  {garbler : Machine Label (GarblingState suite)} {evaluator : Machine Label EvaluationState}
  {inputs : List Bool}

/-- A duet in which no slice asks for a restart. -/
theorem Duet.uninterrupted {drafts : List (Draft × Break)} {revealed outputs : List UInt64}
    (duet : Duet suite offset program budget garbler evaluator inputs drafts revealed outputs)
    (never : ∀ draft ∈ drafts, draft.2 ≠ .restart) :
    ∃ garblerLast evaluatorLast,
      Uninterrupted suite offset program budget garbler evaluator inputs (drafts.map Prod.fst)
        garblerLast evaluatorLast ∧
      evaluatorLast.processor.log.takeOpenings.1.length < UInt64.size ∧
      evaluatorLast.processor.log.opening.revealed = revealed ∧
      evaluatorLast.backend.outputs.toList = outputs := by
  induction duet with
  | done portion few => exact ⟨_, _, .done portion, few, rfl, rfl⟩
  | time portion rest inductionHypothesis =>
      obtain ⟨_, _, others, few, revealed, outputs⟩ :=
        inductionHypothesis fun draft member => never draft (.tail _ member)
      exact ⟨_, _, .time portion others, few, revealed, outputs⟩
  | restart portion few rest inductionHypothesis => exact absurd rfl (never _ (.head _))

/-- The evaluator has enough inputs for all drafts, which are small. -/
theorem Uninterrupted.enough {drafts : List Draft}
    {garblerLast : Machine Label (GarblingState suite)}
    {evaluatorLast : Machine Label EvaluationState}
    (played : Uninterrupted suite offset program budget garbler evaluator inputs drafts garblerLast
      evaluatorLast) :
    (drafts.map fun draft => draft.evaluatorInputs.size).sum ≤ inputs.length ∧
      ∀ draft ∈ drafts, draft.Small := by
  induction played with
  | done portion =>
      exact ⟨by simpa using portion.enough, by simpa using portion.small⟩
  | time portion rest inductionHypothesis =>
      obtain ⟨enough, small⟩ := inductionHypothesis
      have first := portion.enough
      rw [List.length_drop] at enough
      rw [List.map_cons, List.sum_cons]
      exact ⟨by omega, List.forall_mem_cons.mpr ⟨portion.small, small⟩⟩

end

namespace Evaluator

variable {task : Task} {offset : Offset} {garbler garblerAfter : Machine Label (GarblingState suite)}
  {evaluator : Evaluator suite} {evaluatorAfter : Machine Label EvaluationState}
  {inputs : List Bool} {ending : Break} {stored : StoredRun} {drafts : List Draft}

/-- The evaluator replays the slice of the oldest stored batch. -/
theorem replaySlice_of_portion
    (portion : Portion suite offset task.program task.settings.timeSlice.toNat garbler
      evaluator.machine inputs ending garblerAfter evaluatorAfter)
    (holds : stored.Holds
      (Draft.batches evaluator.nextBatch (garblerAfter.backend.draft :: drafts))
      (answers offset (Draft.requests (garblerAfter.backend.draft :: drafts)) inputs)) :
    ∃ after, replaySlice task (evaluator, stored) = afterReplay ending
        ({ evaluator with machine := evaluatorAfter, nextBatch := evaluator.nextBatch + 1 },
          after) ∧
      after.Holds (Draft.batches (evaluator.nextBatch + 1) drafts)
        (answers offset (Draft.requests drafts)
          (inputs.drop garblerAfter.backend.draft.evaluatorInputs.size)) := by
  obtain ⟨after, popped, holdsAfter⟩ := holds.pop_draft (portion.short .evaluatorInput)
  have whole : (garblerAfter.backend.draft.batch evaluator.nextBatch).onArrival =
      garblerAfter.backend.draft.batch evaluator.nextBatch :=
    BatchPair.onArrival_eq (portion.short .mask)
  rw [whole] at popped
  have position : evaluator.checkPosition
      (garblerAfter.backend.draft.batch evaluator.nextBatch).gates = .ok () :=
    checkPosition_eq_ok.mpr ⟨rfl, portion.first⟩
  have count : (garblerAfter.backend.draft.select offset inputs).length =
      garblerAfter.backend.draft.evaluatorInputs.size := by
    simp [Draft.select, Nat.min_eq_left portion.enough]
  have read := garblerAfter.backend.draft.ofBatch_take evaluator.nextBatch 0 count
    (portion.short .evaluatorInput)
  exact ⟨after, replaySlice_apply popped position read portion.evaluates, holdsAfter⟩

end Evaluator

/-- The evaluator replays the last slice, and opens the values that the garbler waits for. -/
theorem agree_replay_done {garbler : Garbler suite} {evaluator : Evaluator suite}
    {stored : StoredRun}
    (finished : evaluator.machine.backend.reader.finish = .ok ()) (empty : stored.remaining = 0)
    (opens : garbler.machine.processor.log.applyOpenings
      evaluator.machine.processor.log.takeOpenings.1 = .ok evaluator.machine.processor.log.opening)
    (few : evaluator.machine.processor.log.takeOpenings.1.length < UInt64.size) :
    Agree Garbler.await (Evaluator.afterReplay .done) garbler (evaluator, stored) []
      (.finish { revealed := evaluator.machine.processor.log.opening.revealed },
        garbler.opened evaluator.machine.processor.log.opening)
      (some
        { revealed := evaluator.machine.processor.log.opening.revealed
          evaluatorOnly := evaluator.machine.backend.outputs.toList },
        (evaluator.opened evaluator.machine.processor.log.opening, stored)) := by
  have complete := Evaluator.withEvaluator_succeeds (Evaluator.finishBatch_succeeds finished) stored
  have concluded : Agree Garbler.receiveOpenings (Evaluator.withEvaluator Evaluator.conclude)
      garbler (evaluator, stored) [] ((), garbler.opened evaluator.machine.processor.log.opening)
      ({ revealed := evaluator.machine.processor.log.opening.revealed
         evaluatorOnly := evaluator.machine.backend.outputs.toList },
        (evaluator.opened evaluator.machine.processor.log.opening, stored)) := by
    apply Agree.zoom_evaluator
    exact agree_conclude opens few
  apply Agree.bind_evaluator complete
  apply Agree.bind_evaluator (succeeds_get (evaluator, stored))
  simp only [empty, Nat.lt_irrefl, if_false]
  refine Agree.garbler_then (Agree.evaluator_then concluded ?_) ?_
  · exact succeeds_pure _ _
  · apply Succeeds.bind (succeeds_get _)
    exact succeeds_pure _ _

section

variable {garblerTask evaluatorTask : Task} {offset : Offset}
  {before garblerAfter : Machine Label (GarblingState suite)} {evaluator : Evaluator suite}
  {evaluatorAfter : Machine Label EvaluationState} {inputs : List Bool} {stored : StoredRun}

/-- While the garbler waits, the evaluator replays a slice after which the program goes on. -/
theorem Portion.joint_replay_time {drafts : List Draft}
    (portion : Portion suite offset evaluatorTask.program
      evaluatorTask.settings.timeSlice.toNat before evaluator.machine inputs .time garblerAfter
      evaluatorAfter)
    (holds : stored.Holds
      (Draft.batches evaluator.nextBatch (garblerAfter.backend.draft :: drafts))
      (answers offset (Draft.requests (garblerAfter.backend.draft :: drafts)) inputs))
    (garbler : Activity (Garbler.Phase suite) Run.Outcome) :
    ∃ after, (Run.parties suite usable garblerTask evaluatorTask).Joint garbler
        (.running (Evaluator.rounds usable evaluatorTask (.replaying (evaluator, stored)))) [] []
        garbler
        (.running (Evaluator.rounds usable evaluatorTask (.replaying
          ({ evaluator with machine := evaluatorAfter, nextBatch := evaluator.nextBatch + 1 },
            after)))) ∧
      after.Holds (Draft.batches (evaluator.nextBatch + 1) drafts)
        (answers offset (Draft.requests drafts)
          (inputs.drop garblerAfter.backend.draft.evaluatorInputs.size)) := by
  obtain ⟨after, replayed, holdsAfter⟩ := Evaluator.replaySlice_of_portion portion holds
  let replaying : Evaluator suite :=
    { evaluator with machine := evaluatorAfter, nextBatch := evaluator.nextBatch + 1 }
  have closed : (Evaluator.replaySlice evaluatorTask).Succeeds (evaluator, stored) [] none
      (replaying, after) := by
    rw [Succeeds, replayed]
    apply Succeeds.bind
      (Evaluator.withEvaluator_succeeds (Evaluator.finishBatch_succeeds portion.finished) after)
    exact succeeds_pure _ _
  have round : (Evaluator.replayRound evaluatorTask).Succeeds (evaluator, stored) []
      (.again ()) (replaying, after) := Succeeds.bind closed (succeeds_pure _ _)
  exact ⟨after, round.evaluator_again garbler, holdsAfter⟩

/-- The evaluator replays the last slice, and both parties come to their outputs. -/
theorem Portion.joint_replay_done
    (portion : Portion suite offset evaluatorTask.program
      evaluatorTask.settings.timeSlice.toNat before evaluator.machine inputs .done garblerAfter
      evaluatorAfter)
    (few : evaluatorAfter.processor.log.takeOpenings.1.length < UInt64.size)
    {garbler : Garbler suite}
    (log : garbler.machine.processor.log = garblerAfter.processor.log)
    (holds : stored.Holds (Draft.batches evaluator.nextBatch [garblerAfter.backend.draft])
      (answers offset (Draft.requests [garblerAfter.backend.draft]) inputs)) :
    (Run.parties suite usable garblerTask evaluatorTask).Joint
      (.running (garbler.roundOf Garbler.await))
      (.running (Evaluator.rounds usable evaluatorTask (.replaying (evaluator, stored)))) [] []
      (.ended (.ok { revealed := evaluatorAfter.processor.log.opening.revealed }))
      (.ended (.ok
        { revealed := evaluatorAfter.processor.log.opening.revealed
          evaluatorOnly := evaluatorAfter.backend.outputs.toList })) := by
  obtain ⟨after, replayed, holdsAfter⟩ := Evaluator.replaySlice_of_portion portion holds
  have opens := portion.opens
  rw [← log] at opens
  let replaying : Evaluator suite :=
    { evaluator with machine := evaluatorAfter, nextBatch := evaluator.nextBatch + 1 }
  have closed : Agree Garbler.await (Evaluator.replaySlice evaluatorTask) garbler
      (evaluator, stored) []
      (.finish { revealed := evaluatorAfter.processor.log.opening.revealed },
        garbler.opened evaluatorAfter.processor.log.opening)
      (some
        { revealed := evaluatorAfter.processor.log.opening.revealed
          evaluatorOnly := evaluatorAfter.backend.outputs.toList },
        (replaying.opened evaluatorAfter.processor.log.opening, after)) := by
    rw [Agree, replayed]
    exact agree_replay_done portion.finished holdsAfter.remaining opens few
  have round : Agree Garbler.await (Evaluator.replayRound evaluatorTask) garbler
      (evaluator, stored) []
      (.finish { revealed := evaluatorAfter.processor.log.opening.revealed },
        garbler.opened evaluatorAfter.processor.log.opening)
      (.finish
        { revealed := evaluatorAfter.processor.log.opening.revealed
          evaluatorOnly := evaluatorAfter.backend.outputs.toList },
        (replaying.opened evaluatorAfter.processor.log.opening, after)) :=
    Agree.evaluator_then closed (succeeds_pure _ _)
  exact round.finish

end

/-- While the garbler waits, the evaluator replays all stored batches. -/
theorem Uninterrupted.replays {garblerTask evaluatorTask : Task} {offset : Offset}
    {first last : Machine Label (GarblingState suite)}
    {begins ends : Machine Label EvaluationState} {inputs : List Bool} {drafts : List Draft}
    (played : Uninterrupted suite offset evaluatorTask.program
      evaluatorTask.settings.timeSlice.toNat first begins inputs drafts last ends)
    (few : ends.processor.log.takeOpenings.1.length < UInt64.size) {garbler : Garbler suite}
    (log : garbler.machine.processor.log = last.processor.log) {evaluator : Evaluator suite}
    {stored : StoredRun} (same : evaluator.machine = begins)
    (holds : stored.Holds (Draft.batches evaluator.nextBatch drafts)
      (answers offset (Draft.requests drafts) inputs)) :
    (Run.parties suite usable garblerTask evaluatorTask).Joint
      (.running (garbler.roundOf Garbler.await))
      (.running (Evaluator.rounds usable evaluatorTask (.replaying (evaluator, stored)))) [] []
      (.ended (.ok { revealed := ends.processor.log.opening.revealed }))
      (.ended (.ok
        { revealed := ends.processor.log.opening.revealed
          evaluatorOnly := ends.backend.outputs.toList })) := by
  induction played generalizing evaluator stored with
  | done portion =>
      subst same
      exact portion.joint_replay_done few log holds
  | @time _ _ _ _ machine _ _ _ portion rest inductionHypothesis =>
      subst same
      obtain ⟨after, replayed, holdsAfter⟩ := portion.joint_replay_time holds
        (.running (garbler.roundOf Garbler.await))
      exact replayed.trans (@inductionHypothesis few log
        { evaluator with machine, nextBatch := evaluator.nextBatch + 1 } after rfl holdsAfter)

/-- From a point where the batches of some slices have been stored, partners play what is left,
replay all of it, and come to the end. -/
theorem Buffered.joint_of_uninterrupted (lawful : suite.Lawful) {garblerTask evaluatorTask : Task}
    (buffered : Buffered garblerTask evaluatorTask) {offset : Offset}
    {first machine last : Machine Label (GarblingState suite)}
    {begins middle ends others : Machine Label EvaluationState} {inputs left : List Bool}
    {all rest : List Draft}
    (whole : Uninterrupted suite offset evaluatorTask.program
      evaluatorTask.settings.timeSlice.toNat first begins inputs all last ends)
    (few : ends.processor.log.takeOpenings.1.length < UInt64.size)
    (tail : Uninterrupted suite offset garblerTask.program garblerTask.settings.timeSlice.toNat
      machine middle left rest last others)
    {drafts : List Draft} (split : all = drafts ++ rest) {transfer : LabelTransfer suite}
    {number : UInt64} {evaluator : Evaluator suite} (same : evaluator.machine = begins)
    (choices : evaluator.inputs = inputs) {stored : StoredRun}
    (storing : Storing drafts ⟨offset, transfer, machine, number⟩ evaluator stored) :
    ∃ messages phases,
      (Run.parties suite usable garblerTask evaluatorTask).Joint
        (.running (Garbler.rounds garblerTask (.slicing ⟨offset, transfer, machine, number⟩)))
        (.running (Evaluator.rounds usable evaluatorTask (.storing (evaluator, stored))))
        messages phases (.ended (.ok { revealed := ends.processor.log.opening.revealed }))
        (.ended (.ok
          { revealed := ends.processor.log.opening.revealed
            evaluatorOnly := ends.backend.outputs.toList })) ∧
      Transcript.Carries messages (streamEntries number rest) := by
  induction tail generalizing drafts transfer number stored with
  | @done before lastMachine _ _ _ portion =>
      subst same choices split
      obtain ⟨after, sent, storingAfter⟩ := buffered.joint_done storing portion.garbles portion.small
      obtain ⟨enough, small⟩ := whole.enough
      obtain ⟨messages, garblerTransfer, replaying, complete, wrapped, carries, machineSame,
        numberSame, holds⟩ := Buffered.joint_wrapUp lawful storingAfter small enough
      rw [← numberSame] at holds
      let waiting : Garbler suite :=
        { Garbler.sending ⟨offset, transfer, before, number⟩ lastMachine with transfer := garblerTransfer }
      have log : waiting.machine.processor.log = lastMachine.processor.log := rfl
      refine ⟨_, _, sent.trans (wrapped.trans (whole.replays few log machineSame holds)), ?_⟩
      rw [List.append_nil]
      exact (Transcript.carries_batch (portion.countable number)).append carries
  | time portion rest inductionHypothesis =>
      obtain ⟨after, sent, storingAfter⟩ := buffered.joint_time storing portion.garbles portion.small
      obtain ⟨messages, phases, played, carries⟩ :=
        inductionHypothesis whole (by rw [split, List.append_assoc]; rfl) storingAfter
      refine ⟨_, _, sent.trans played, ?_⟩
      exact (Transcript.carries_batch (portion.countable number)).append carries

/-- Partners play a duet without restarts in buffered mode. The messages carry the batches of the
duet. -/
theorem Duet.buffered (lawful : suite.Lawful) {garblerTask evaluatorTask : Task}
    (buffered : Buffered garblerTask evaluatorTask) {garbler : Garbler suite}
    {evaluator : Evaluator suite} {drafts : List (Draft × Break)} {revealed outputs : List UInt64}
    (duet : Duet suite garbler.offset garblerTask.program garblerTask.settings.timeSlice.toNat
      garbler.machine evaluator.machine evaluator.inputs drafts revealed outputs)
    (never : ∀ draft ∈ drafts, draft.2 ≠ .restart) (partners : Partners garbler evaluator)
    (storage : Storage) :
    ∃ messages phases,
      (Run.parties suite usable garblerTask evaluatorTask).Joint
        (.running (Garbler.rounds garblerTask (.slicing garbler)))
        (.running (Evaluator.rounds usable evaluatorTask (.storing (evaluator, .empty storage))))
        messages phases (.ended (.ok { revealed }))
        (.ended (.ok { revealed, evaluatorOnly := outputs })) ∧
      Transcript.Carries messages (streamEntries garbler.nextBatch (drafts.map Prod.fst)) := by
  obtain ⟨last, ends, played, few, rfl, rfl⟩ := duet.uninterrupted never
  have whole := played
  rw [buffered.program, buffered.timeSlice] at whole
  exact buffered.joint_of_uninterrupted lawful whole few played rfl rfl rfl
    (Storing.start partners storage)

/-- The garbler refuses to play a duet with a restart in buffered mode. The evaluator waits for
another batch then. -/
theorem Duet.refused {garblerTask evaluatorTask : Task}
    (buffered : Buffered garblerTask evaluatorTask) {offset : Offset}
    {garbler : Machine Label (GarblingState suite)} {middle : Machine Label EvaluationState}
    {inputs : List Bool} {drafts : List (Draft × Break)} {revealed outputs : List UInt64}
    (duet : Duet suite offset garblerTask.program garblerTask.settings.timeSlice.toNat garbler
      middle inputs drafts revealed outputs)
    (restarts : ∃ draft ∈ drafts, draft.2 = .restart) {transfer : LabelTransfer suite}
    {number : UInt64} {evaluator : Evaluator suite} {stored : StoredRun} {before : List Draft}
    (storing : Storing before ⟨offset, transfer, garbler, number⟩ evaluator stored) :
    ∃ messages phases after,
      (Run.parties suite usable garblerTask evaluatorTask).Joint
        (.running (Garbler.rounds garblerTask (.slicing ⟨offset, transfer, garbler, number⟩)))
        (.running (Evaluator.rounds usable evaluatorTask (.storing (evaluator, stored))))
        messages phases
        (.ended (.error (.settings (.restartInBufferedMode .garbler))))
        (.running (Evaluator.rounds usable evaluatorTask (.storing (evaluator, after)))) := by
  induction duet generalizing transfer number stored before with
  | done portion few => simp at restarts
  | time portion rest inductionHypothesis =>
      obtain ⟨after, sent, storingAfter⟩ := buffered.joint_time storing portion.garbles portion.small
      obtain ⟨messages, phases, last, played⟩ :=
        inductionHypothesis (by simpa using restarts) storingAfter
      exact ⟨_, _, last, sent.trans played⟩
  | @restart machine _ _ _ _ _ _ _ portion few rest inductionHypothesis =>
      exact ⟨[], [], stored, @Buffered.joint_refuse suite usable _ _
        ⟨offset, transfer, machine, number⟩ _ buffered portion.garbles _⟩

/-- The setup of both parties leads them to their first slice. -/
theorem Buffered.joint_enter {garblerTask evaluatorTask : Task}
    (buffered : Buffered garblerTask evaluatorTask) {storage : Storage}
    (selected : Storage.select usable evaluatorTask.settings.storeDirectory = .ok storage)
    {garblerGenerator evaluatorGenerator : suite.Generator} {messages : List Bytes}
    {garbler : Garbler suite} {evaluator : Evaluator suite}
    {garblerRest evaluatorRest : LabelTransfer suite × suite.Generator}
    (agree : Agree (Garbler.enter garblerTask) (Evaluator.enter evaluatorTask)
      ({}, garblerGenerator) ({}, evaluatorGenerator) messages (garbler, garblerRest)
      (evaluator, evaluatorRest)) :
    (Run.parties suite usable garblerTask evaluatorTask).Joint
      (.running (Garbler.rounds garblerTask (.entering garblerGenerator)))
      (.running (Evaluator.rounds usable evaluatorTask (.entering evaluatorGenerator)))
      messages [.slicing garbler]
      (.running (Garbler.rounds garblerTask (.slicing garbler)))
      (.running (Evaluator.rounds usable evaluatorTask
        (.storing (evaluator, .empty storage)))) := by
  have mode := buffered.mode
  rw [buffered.typed] at mode
  refine (?_ : Agree _ _ _ _ _ (Next.again garbler, garblerRest)
    (Next.again (Evaluator.Phase.storing (evaluator, .empty storage)), evaluatorRest)).again
  refine Agree.garbler_then (Agree.evaluator_then agree ?_) ?_
  · rw [mode, Evaluator.openStore, selected]
    exact succeeds_pure _ _
  · exact succeeds_pure _ _

/-- Honest parties come to the values of the reference interpreter together in buffered mode, if it
finishes the program and no instruction needs a value that was revealed before it. -/
theorem Buffered.joint_of_finishes (lawful : suite.Lawful) {garblerTask evaluatorTask : Task}
    (buffered : Buffered garblerTask evaluatorTask) {storage : Storage}
    (selected : Storage.select usable evaluatorTask.settings.storeDirectory = .ok storage)
    (garblerGenerator evaluatorGenerator : suite.Generator) {path : List Instruction}
    {final : Reference}
    (finishes : Reference.Finishes garblerTask.program
      (.start garblerTask.program garblerTask.inputs evaluatorTask.inputs) path final)
    (never : Instruction.NeverWaits ∅ path)
    (masks : (path.map Instruction.width).sum < UInt64.size)
    (values : final.revealed.length < UInt64.size) :
    ∃ messages phases, (Run.parties suite usable garblerTask evaluatorTask).Joint
      (.running (Garbler.rounds garblerTask (.entering garblerGenerator)))
      (.running (Evaluator.rounds usable evaluatorTask (.entering evaluatorGenerator)))
      messages phases (.ended (.ok { revealed := final.revealed }))
      (.ended (.ok { revealed := final.revealed, evaluatorOnly := final.outputs })) := by
  obtain ⟨_, _, _, _, _, drafts, enters, partners, duet, free⟩ :=
    buffered.agree_duet lawful garblerGenerator evaluatorGenerator finishes masks values
  obtain ⟨messages, phases, played, _⟩ :=
    duet.buffered lawful buffered (free never) partners storage
  exact ⟨_, _, (buffered.joint_enter selected enters).trans played⟩

end Garbling
