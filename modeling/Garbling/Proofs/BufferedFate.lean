import Mathlib
import Garbling.Proofs.BufferedRun
import Garbling.Proofs.Failures
import Garbling.Proofs.Hearing

/-!
# What can become of a run in buffered mode

The garbler sends its batches until it fails, refuses a restart, or comes to the end of the program.
Then the evaluator needs enough inputs for all batches, and replays them from its start. The parties
have been in step there, so it follows every slice of the garbler unless it runs out of masks.
-/

namespace Garbling

open Session

variable {suite : Suite} {usable : String → Bool} {offset : Offset} {program : Program}
  {budget : Nat}

/-- The drafts of the slices from a point to the end of the program, none of which ends with a
restart, and the machine after them. -/
inductive Sliced (suite : Suite) (offset : Offset) (program : Program) (budget : Nat) :
    Machine Label (GarblingState suite) → List Draft → Machine Label (GarblingState suite) → Prop
  | done {garbler after : Machine Label (GarblingState suite)}
      (garbles : Machine.execute (GarblingState.backend suite offset) program budget garbler =
        (.ok .done, after)) :
      Sliced suite offset program budget garbler [after.backend.draft] after
  | time {garbler after last : Machine Label (GarblingState suite)} {drafts : List Draft}
      (garbles : Machine.execute (GarblingState.backend suite offset) program budget garbler =
        (.ok .time, after))
      (rest : Sliced suite offset program budget after.emptied drafts last) :
      Sliced suite offset program budget garbler (after.backend.draft :: drafts) last

/-- The drafts of some slices after which the program goes on, and the machine after them. -/
inductive Timed (suite : Suite) (offset : Offset) (program : Program) (budget : Nat) :
    Machine Label (GarblingState suite) → List Draft → Machine Label (GarblingState suite) → Prop
  | nil {garbler : Machine Label (GarblingState suite)} :
      Timed suite offset program budget garbler [] garbler
  | snoc {first garbler after : Machine Label (GarblingState suite)} {drafts : List Draft}
      (slices : Timed suite offset program budget first drafts garbler)
      (garbles : Machine.execute (GarblingState.backend suite offset) program budget garbler =
        (.ok .time, after)) :
      Timed suite offset program budget first (drafts ++ [after.backend.draft]) after.emptied

section

variable {first garbler last : Machine Label (GarblingState suite)} {drafts others : List Draft}

/-- Slices before others. -/
theorem Timed.sliced (timed : Timed suite offset program budget first drafts garbler)
    (rest : Sliced suite offset program budget garbler others last) :
    Sliced suite offset program budget first (drafts ++ others) last := by
  induction timed generalizing others with
  | nil => exact rest
  | snoc slices garbles inductionHypothesis =>
      rw [List.append_assoc]
      exact inductionHypothesis (.time garbles rest)

/-- The draft is empty between slices. -/
theorem Timed.empty (timed : Timed suite offset program budget first drafts garbler)
    (empty : first.backend.draft = { firstGate := first.backend.gateCount }) :
    garbler.backend.draft = { firstGate := garbler.backend.gateCount } := by
  cases timed with
  | nil => exact empty
  | snoc slices garbles => rfl

/-- The drafts of slices are small. -/
theorem Sliced.small (sliced : Sliced suite offset program budget first drafts last)
    (empty : first.backend.draft = { firstGate := first.backend.gateCount })
    (small : budget < UInt64.size) : ∀ draft ∈ drafts, draft.Small := by
  induction sliced with
  | done garbles =>
      exact List.forall_mem_singleton.mpr (Draft.small_of_execute empty small garbles)
  | time garbles rest inductionHypothesis =>
      exact List.forall_mem_cons.mpr
        ⟨Draft.small_of_execute empty small garbles, inductionHypothesis rfl⟩

end

/-- If the evaluator has enough inputs for a slice of the garbler, then it follows the slice or runs
out of masks. -/
theorem Machine.InStep.follows {garbler garblerAfter : Machine Label (GarblingState suite)}
    {evaluator : Machine Label EvaluationState}
    (inStep : Machine.InStep offset garbler evaluator) (colored : offset.Colored)
    (small : budget < UInt64.size) {ending : Break}
    (garbles : Machine.execute (GarblingState.backend suite offset) program budget garbler =
      (.ok ending, garblerAfter)) {inputs : List Bool}
    (enough : garblerAfter.backend.draft.evaluatorInputs.size ≤ inputs.length) :
    (∃ evaluatorAfter,
      Portion suite offset program budget garbler evaluator inputs ending garblerAfter
        evaluatorAfter ∧
      Machine.InStep offset garblerAfter.emptied evaluatorAfter) ∨
    garblerAfter.backend.draft.firstGate = evaluator.backend.gateCount ∧
      garblerAfter.backend.draft.Small ∧
      ∃ error evaluatorAfter, Machine.execute (EvaluationState.backend suite.pad) program budget
        (evaluator.loaded (garblerAfter.backend.draft.arrived.reader
          (garblerAfter.backend.draft.select offset inputs))) = (.error error, evaluatorAfter) := by
  cases inStep.turn colored small inputs with
  | fails failed => cases garbles.symm.trans failed
  | lacks executed first small missing =>
      cases garbles.symm.trans executed
      exact absurd enough (Nat.not_le_of_lt missing)
  | exhausts executed first small enough evaluates =>
      cases garbles.symm.trans executed
      exact .inr ⟨first, small, _, _, evaluates⟩
  | portion portion inStepAfter =>
      cases garbles.symm.trans portion.garbles
      exact .inl ⟨_, portion, inStepAfter⟩

namespace Garbler

theorem hears_await : Hears Next.Finished (await : Session (Garbler suite) _) :=
  hears_receiveOpenings.bind

end Garbler

/-- An evaluator that lacks inputs for some request fails when it comes to it. -/
theorem together_lacking (lawful : suite.Lawful) {requests : List (List Label)}
    {garbler : LabelTransfer suite} {evaluator : Evaluator suite} {stored : StoredRun}
    (linked : LabelTransfer.Linked offset garbler evaluator.transfer)
    (some : ∀ zeroLabels ∈ requests, zeroLabels ≠ [])
    (short : ∀ zeroLabels ∈ requests, zeroLabels.length < UInt64.size)
    (lacking : evaluator.inputs.length < (requests.map List.length).sum) :
    ∃ messages garblerAfter after,
      ∃ garblerRest : Session (LabelTransfer suite) Unit,
        Process.Together (LabelTransfer.serveAll requests garbler)
          (Evaluator.storeInputLabels
            (requests.map fun zeroLabels => UInt64.ofNat zeroLabels.length) (evaluator, stored))
          messages (garblerRest garblerAfter)
          (.done (.error (.execution .missingEvaluatorInput), after)) := by
  induction requests generalizing garbler evaluator stored with
  | nil => exact absurd lacking (Nat.not_lt_zero _)
  | cons zeroLabels requests inductionHypothesis =>
      obtain ⟨someHead, someTail⟩ := List.forall_mem_cons.mp some
      obtain ⟨shortHead, shortTail⟩ := List.forall_mem_cons.mp short
      rw [List.map_cons, List.sum_cons] at lacking
      by_cases enough : zeroLabels.length ≤ evaluator.inputs.length
      · obtain ⟨messages, garblerMiddle, middleTransfer, answered, linkedMiddle, _⟩ :=
          agree_answer_storing lawful linked someHead enough shortHead requests stored
        obtain ⟨more, garblerAfter, after, garblerRest, others⟩ := @inductionHypothesis
          garblerMiddle
          { evaluator with
            transfer := middleTransfer
            inputs := evaluator.inputs.drop zeroLabels.length }
          (stored.pushInputLabels (zeroLabels.zipWith (·.active offset ·) evaluator.inputs))
          linkedMiddle someTail shortTail (by simp only [List.length_drop]; omega)
        refine ⟨messages ++ more, garblerAfter, after, garblerRest, ?_⟩
        rw [LabelTransfer.serveAll_cons]
        exact answered.together.trans others
      · have fails : (Evaluator.storeInputLabels
            ((zeroLabels :: requests).map fun zeroLabels => UInt64.ofNat zeroLabels.length)).Fails
            (evaluator, stored) [] (.execution .missingEvaluatorInput) (evaluator, stored) :=
          (Evaluator.receiveInputLabels_fails shortHead (Nat.lt_of_not_le enough)).zoom.bind
        refine ⟨[], garbler, (evaluator, stored), LabelTransfer.serveAll (zeroLabels :: requests),
          ?_⟩
        rw [fails.eq_done]
        exact .refl

namespace Buffered

variable {garblerTask evaluatorTask : Task} {garbler : Garbler suite} {evaluator : Evaluator suite}
  {stored : StoredRun} {drafts : List Draft}

/-- After the last batch the evaluator fails if it lacks inputs for all requests. The garbler waits
for openings in any case. -/
theorem joint_lacking (lawful : suite.Lawful) (storing : Storing drafts garbler evaluator stored)
    (small : ∀ draft ∈ drafts, draft.Small)
    (lacking : evaluator.inputs.length <
      (drafts.map fun draft => draft.evaluatorInputs.size).sum) :
    ∃ messages garblerAfter rest,
      (Run.parties suite usable garblerTask evaluatorTask).Joint
        (.running (garbler.roundOf Garbler.wrapUp))
        (.running (Evaluator.rounds usable evaluatorTask (.storing (evaluator, stored)))) messages []
        (.running (Garbler.roundOf garblerAfter rest))
        (.ended (.error (.execution .missingEvaluatorInput))) ∧
      Hears Next.Finished rest := by
  rw [← Draft.sum_requests] at lacking
  let told : StoredRun := { stored with inputCounts := [] }
  obtain ⟨messages, transferAfter, after, transferRest, lacks⟩ :=
    @together_lacking suite garbler.offset lawful _ _ _ told storing.linked
      (Draft.requests_ne_nil drafts) (Draft.requests_short small) lacking
  let rest : Session (Garbler suite) (Next Unit Outputs) := do
    Session.zoom Garbler.transfer (fun transfer garbler => { garbler with transfer }) transferRest
    Garbler.await
  have serves : Process.Together ((Garbler.serveInputs >>= fun _ => Garbler.await) garbler)
      (Evaluator.storeInputLabels stored.inputCounts (evaluator, told)) messages
      (rest { garbler with transfer := transferAfter })
      (.done (.error (.execution .missingEvaluatorInput), after)) := by
    rw [storing.counts]
    have serve : (LabelTransfer.serve : Session (LabelTransfer suite) Unit) garbler.transfer =
        LabelTransfer.serveAll (Draft.requests drafts) garbler.transfer := by
      rw [LabelTransfer.serve, bind_apply_of_succeeds (succeeds_get garbler.transfer),
        storing.queued]
    rw [bind_apply Garbler.serveInputs, Garbler.serveInputs, Session.zoom, serve]
    dsimp only [rest]
    rw [bind_apply (Session.zoom _ _ transferRest)]
    exact (lacks.bind_garbler _).bind_garbler _
  have stores : Process.Together (Garbler.wrapUp garbler)
      (Evaluator.storeBatch (evaluator, stored)) ([BatchStream.tag .done] ++ messages)
      (rest { garbler with transfer := transferAfter })
      (.done (.error (.execution .missingEvaluatorInput), after)) := by
    refine (BatchStream.agree_done garbler (evaluator, stored)).together.trans ?_
    dsimp only
    rw [bind_apply_of_succeeds (succeeds_modifyGet _ (evaluator, stored)),
      bind_apply (Evaluator.storeInputLabels _)]
    exact serves.bind_evaluator _
  have fails : (throw (.execution .missingEvaluatorInput) :
      Session (Evaluator.Buffering suite) (Next Bool Outputs)).Fails after [] _ after := fails_throw _ after
  have round : Process.Together (Garbler.wrapUp garbler)
      (Evaluator.storeRound (evaluator, stored)) ([BatchStream.tag .done] ++ messages)
      (rest { garbler with transfer := transferAfter })
      ((throw (.execution .missingEvaluatorInput) :
        Session (Evaluator.Buffering suite) (Next Bool Outputs)) after) := by
    rw [Evaluator.storeRound, bind_apply Evaluator.storeBatch]
    exact stores.bind_evaluator _
  exact ⟨_, _, rest, (joint_of_together round).trans (fails.evaluator_ends _),
    hears_bind _ fun _ => Garbler.hears_await⟩

end Buffered

/-- An evaluator that runs out of masks fails when it replays the slice. -/
theorem Evaluator.replaySlice_fails {task : Task} {evaluator : Evaluator suite}
    {stored : StoredRun} {draft : Draft} {drafts : List Draft} {inputs : List Bool}
    (holds : stored.Holds (Draft.batches evaluator.nextBatch (draft :: drafts))
      (answers offset (Draft.requests (draft :: drafts)) inputs))
    (first : draft.firstGate = evaluator.machine.backend.gateCount) (small : draft.Small)
    (enough : draft.evaluatorInputs.size ≤ inputs.length) {error : Error}
    {machine : Machine Label EvaluationState}
    (evaluates : Machine.execute (EvaluationState.backend suite.pad) task.program
      task.settings.timeSlice.toNat (evaluator.machine.loaded
        (draft.arrived.reader (draft.select offset inputs))) = (.error error, machine)) :
    ∃ after, (replaySlice task).Fails (evaluator, stored) [] error after := by
  obtain ⟨left, popped, _⟩ := holds.pop_draft (small .evaluatorInput (by decide))
  rw [Draft.onArrival_batch] at popped
  have count : (draft.select offset inputs).length = draft.arrived.evaluatorInputs.size := by
    simp [Draft.select, Draft.arrived, Nat.min_eq_left enough]
  let reading : Evaluator suite :=
    { evaluator with
      machine := evaluator.machine.loaded (draft.arrived.reader (draft.select offset inputs))
      nextBatch := evaluator.nextBatch + 1 }
  have loads : (withEvaluator (load (draft.arrived.batch evaluator.nextBatch)
      (draft.select offset inputs))).Succeeds (evaluator, left) [] () (reading, left) :=
    withEvaluator_succeeds (@load_draft suite evaluator draft.arrived _ _ rfl first small.arrived
      count) left
  have fails : (withEvaluator (executeSlice task)).Fails (reading, left) [] error
      ({ reading with machine }, left) := (executeSlice_fails evaluates).zoom
  refine ⟨({ reading with machine }, left), ?_⟩
  rw [Fails, replaySlice, bind_apply_of_succeeds (succeeds_get (evaluator, stored))]
  simp only [popped]
  exact (succeeds_set _ _).fails (loads.fails fails.bind)

namespace Buffered

variable {garblerTask evaluatorTask : Task} {agreed : Run.Outcome → Run.Outcome → Prop}
  {steps : Nat} {garbler : Garbler suite} {evaluator : Evaluator suite} {stored : StoredRun}

/-- The evaluator runs out of masks while it replays a slice. -/
theorem prospect_of_exhausts {draft : Draft} {drafts : List Draft} {inputs : List Bool}
    (holds : stored.Holds (Draft.batches evaluator.nextBatch (draft :: drafts))
      (answers offset (Draft.requests (draft :: drafts)) inputs))
    (first : draft.firstGate = evaluator.machine.backend.gateCount) (small : draft.Small)
    (enough : draft.evaluatorInputs.size ≤ inputs.length) {error : Error}
    {machine : Machine Label EvaluationState}
    (evaluates : Machine.execute (EvaluationState.backend suite.pad) evaluatorTask.program
      evaluatorTask.settings.timeSlice.toNat (evaluator.machine.loaded
        (draft.arrived.reader (draft.select offset inputs))) = (.error error, machine)) :
    (Run.parties suite usable garblerTask evaluatorTask).Prospect agreed steps
      (.running (garbler.roundOf Garbler.await))
      (.running (Evaluator.rounds usable evaluatorTask (.replaying (evaluator, stored)))) := by
  obtain ⟨after, fails⟩ := Evaluator.replaySlice_fails holds first small enough evaluates
  have round : (Evaluator.replayRound evaluatorTask).Fails (evaluator, stored) [] error after :=
    fails.bind
  exact .of_settled (round.evaluator_ends _)
    (.evaluatorFails error (Garbler.needsMessage_roundOf _ _ Garbler.hears_await))

/-- There are openings after the last slice that cannot be counted. Only the evaluator comes to its
outputs then. -/
theorem prospect_of_replay_done
    (overflows : ∀ error outputs, UInt64.size ≤ outputs.revealed.length →
      agreed (.error error) (.ok outputs))
    {before garblerAfter : Machine Label (GarblingState suite)}
    {evaluatorAfter : Machine Label EvaluationState} {inputs : List Bool}
    (portion : Portion suite offset evaluatorTask.program
      evaluatorTask.settings.timeSlice.toNat before evaluator.machine inputs .done garblerAfter
      evaluatorAfter)
    (many : UInt64.size ≤ evaluatorAfter.processor.log.takeOpenings.1.length)
    (log : garbler.machine.processor.log = garblerAfter.processor.log)
    (holds : stored.Holds (Draft.batches evaluator.nextBatch [garblerAfter.backend.draft])
      (answers offset (Draft.requests [garblerAfter.backend.draft]) inputs)) :
    (Run.parties suite usable garblerTask evaluatorTask).Prospect agreed steps
      (.running (garbler.roundOf Garbler.await))
      (.running (Evaluator.rounds usable evaluatorTask (.replaying (evaluator, stored)))) := by
  obtain ⟨after, replayed, holdsAfter⟩ := Evaluator.replaySlice_of_portion portion holds
  have opens := portion.opens
  rw [← log] at opens
  let replaying : Evaluator suite :=
    { evaluator with machine := evaluatorAfter, nextBatch := evaluator.nextBatch + 1 }
  obtain ⟨error, refused⟩ := @together_conclude_refused suite _ garbler replaying opens many
    (fun _ => (do return .finish (← get).outputs : Session (Garbler suite) (Next Unit Outputs)))
  have complete := Evaluator.withEvaluator_succeeds
    (@Evaluator.finishBatch_succeeds suite replaying portion.finished) after
  have last : Evaluator.afterReplay .done (replaying, after) =
      (do return some (← Evaluator.withEvaluator Evaluator.conclude) :
        Session (Evaluator.Buffering suite) (Option Outputs)) (replaying, after) := by
    rw [Evaluator.afterReplay, bind_apply_of_succeeds complete,
      bind_apply_of_succeeds (succeeds_get (replaying, after)), holdsAfter.remaining]
    rfl
  let outputs : Outputs :=
    { revealed := replaying.machine.processor.log.opening.revealed
      evaluatorOnly := replaying.machine.backend.outputs.toList }
  let opened := replaying.opened replaying.machine.processor.log.opening
  have round : Process.Together (Garbler.await garbler)
      (Evaluator.replayRound evaluatorTask (evaluator, stored)) []
      ((throw error : Session (Garbler suite) (Next Unit Outputs)) garbler)
      ((pure (.finish outputs) : Session (Evaluator.Buffering suite) (Next Unit Outputs))
        (opened, after)) := by
    rw [Evaluator.replayRound, bind_apply, replayed, last]
    exact ((refused.bind_evaluator _).bind_evaluator _).bind_evaluator _
  have fails : (throw error : Session (Garbler suite) (Next Unit Outputs)).Fails garbler [] error
      garbler := fails_throw error garbler
  have revealed := many.trans (RevealLog.length_takeOpenings_le _)
  exact .of_settled
    (((joint_of_together round).trans (fails.garbler_ends _)).trans
      (Parties.Joint.evaluator_ends _))
    (.ended (overflows error outputs revealed))

/-- While the garbler waits, the evaluator replays the slices that are left. It runs out of masks,
or both parties have played a duet when they come to the end. -/
theorem prospect_replaying (overflows : ∀ error outputs, UInt64.size ≤ outputs.revealed.length →
      agreed (.error error) (.ok outputs)) (colored : offset.Colored)
    {first last : Machine Label (GarblingState suite)} {drafts : List Draft}
    (sliced : Sliced suite offset evaluatorTask.program evaluatorTask.settings.timeSlice.toNat first
      drafts last)
    (log : garbler.machine.processor.log = last.processor.log) {inputs : List Bool}
    (enough : (drafts.map fun draft => draft.evaluatorInputs.size).sum ≤ inputs.length)
    (inStep : Machine.InStep offset first evaluator.machine)
    (holds : stored.Holds (Draft.batches evaluator.nextBatch drafts)
      (answers offset (Draft.requests drafts) inputs))
    (duets : ∀ drafts revealed outputs,
      Duet suite offset evaluatorTask.program evaluatorTask.settings.timeSlice.toNat first
        evaluator.machine inputs drafts revealed outputs →
      agreed (.ok { revealed }) (.ok { revealed, evaluatorOnly := outputs })) :
    (Run.parties suite usable garblerTask evaluatorTask).Prospect agreed steps
      (.running (garbler.roundOf Garbler.await))
      (.running (Evaluator.rounds usable evaluatorTask (.replaying (evaluator, stored)))) := by
  have budget := evaluatorTask.settings.timeSlice.toNat_lt_size
  induction sliced generalizing evaluator stored inputs with
  | done garbles =>
      rw [List.map_singleton, List.sum_singleton] at enough
      obtain ⟨evaluatorAfter, portion, _⟩ | ⟨first, small, _, _, evaluates⟩ :=
        inStep.follows colored budget garbles enough
      · by_cases few : evaluatorAfter.processor.log.takeOpenings.1.length < UInt64.size
        · exact .of_settled (portion.joint_replay_done few log holds)
            (.ended (duets _ _ _ (.done portion few)))
        · exact prospect_of_replay_done overflows portion (Nat.le_of_not_lt few) log holds
      · exact prospect_of_exhausts holds first small enough evaluates
  | @time _ machine _ _ garbles rest inductionHypothesis =>
      rw [List.map_cons, List.sum_cons] at enough
      have head : machine.backend.draft.evaluatorInputs.size ≤ inputs.length := by omega
      obtain ⟨evaluatorAfter, portion, inStepAfter⟩ | ⟨first, small, _, _, evaluates⟩ :=
        inStep.follows colored budget garbles head
      · obtain ⟨after, replayed, holdsAfter⟩ :=
          portion.joint_replay_time holds (.running (garbler.roundOf Garbler.await))
        refine (@inductionHypothesis
          { evaluator with machine := evaluatorAfter, nextBatch := evaluator.nextBatch + 1 } after
          log _ ?_ inStepAfter holdsAfter
          fun _ _ _ duet => duets _ _ _ (.time portion duet)).after replayed (Nat.le_add_left _ _)
        rw [List.length_drop]
        omega
      · exact prospect_of_exhausts holds first small head evaluates

/-- The garbler has sent its last batch, and ends the stream. -/
theorem prospect_wrapUp (lawful : suite.Lawful)
    (overflows : ∀ error outputs, UInt64.size ≤ outputs.revealed.length →
      agreed (.error error) (.ok outputs)) (colored : garbler.offset.Colored)
    {first last : Machine Label (GarblingState suite)} {drafts : List Draft}
    (sliced : Sliced suite garbler.offset evaluatorTask.program
      evaluatorTask.settings.timeSlice.toNat first drafts last)
    (empty : first.backend.draft = { firstGate := first.backend.gateCount })
    (log : garbler.machine.processor.log = last.processor.log)
    (storing : Storing drafts garbler evaluator stored)
    (inStep : Machine.InStep garbler.offset first evaluator.machine)
    (duets : ∀ drafts revealed outputs,
      Duet suite garbler.offset evaluatorTask.program evaluatorTask.settings.timeSlice.toNat first
        evaluator.machine evaluator.inputs drafts revealed outputs →
      agreed (.ok { revealed }) (.ok { revealed, evaluatorOnly := outputs })) :
    (Run.parties suite usable garblerTask evaluatorTask).Prospect agreed steps
      (.running (garbler.roundOf Garbler.wrapUp))
      (.running (Evaluator.rounds usable evaluatorTask (.storing (evaluator, stored)))) := by
  have small := sliced.small empty evaluatorTask.settings.timeSlice.toNat_lt_size
  by_cases enough :
    (drafts.map fun draft => draft.evaluatorInputs.size).sum ≤ evaluator.inputs.length
  · obtain ⟨_, garblerTransfer, replaying, complete, wrapped, _, machineSame, numberSame, holds⟩ :=
      joint_wrapUp lawful storing small enough
    rw [← numberSame] at holds
    rw [← machineSame] at inStep duets
    let waiting : Garbler suite := { garbler with transfer := garblerTransfer }
    have same : waiting.machine.processor.log = last.processor.log := log
    exact (prospect_replaying overflows colored sliced same enough inStep holds duets).after wrapped
      (Nat.le_add_left steps _)
  · obtain ⟨_, _, rest, lacking, hears⟩ :=
      joint_lacking lawful storing small (Nat.lt_of_not_le enough)
    exact .of_settled lacking (.evaluatorFails _ (Garbler.needsMessage_roundOf _ _ hears))

/-- While the garbler sends its batches, any number of messages can be foreseen, unless one of the
parties fails or they play a duet from the first slice to its end. -/
theorem prospect_storing (lawful : suite.Lawful) (buffered : Buffered garblerTask evaluatorTask)
    (overflows : ∀ error outputs, UInt64.size ≤ outputs.revealed.length →
      agreed (.error error) (.ok outputs)) (colored : garbler.offset.Colored)
    {first : Machine Label (GarblingState suite)} {drafts : List Draft}
    (timed : Timed suite garbler.offset garblerTask.program
      garblerTask.settings.timeSlice.toNat first drafts garbler.machine)
    (empty : first.backend.draft = { firstGate := first.backend.gateCount })
    (storing : Storing drafts garbler evaluator stored)
    (inStep : Machine.InStep garbler.offset first evaluator.machine)
    (duets : ∀ drafts revealed outputs,
      Duet suite garbler.offset garblerTask.program garblerTask.settings.timeSlice.toNat first
        evaluator.machine evaluator.inputs drafts revealed outputs →
      agreed (.ok { revealed }) (.ok { revealed, evaluatorOnly := outputs })) :
    (Run.parties suite usable garblerTask evaluatorTask).Prospect agreed steps
      (.running (Garbler.rounds garblerTask (.slicing garbler)))
      (.running (Evaluator.rounds usable evaluatorTask (.storing (evaluator, stored)))) := by
  induction steps generalizing garbler stored drafts with
  | zero => exact .zero
  | succ steps inductionHypothesis =>
      have small {ending : Break} {machine : Machine Label (GarblingState suite)}
          (garbles : Machine.execute (GarblingState.backend suite garbler.offset)
            garblerTask.program garblerTask.settings.timeSlice.toNat garbler.machine =
              (.ok ending, machine)) : machine.backend.draft.Small :=
        Draft.small_of_execute (timed.empty empty) garblerTask.settings.timeSlice.toNat_lt_size
          garbles
      cases garbles : Machine.execute (GarblingState.backend suite garbler.offset)
        garblerTask.program garblerTask.settings.timeSlice.toNat garbler.machine with
      | mk outcome machine =>
          match outcome with
          | .error error =>
              exact .of_settled (Garbler.joint_fails garbles _)
                (.garblerFails error (Evaluator.needsMessage_storing evaluatorTask _))
          | .ok .restart =>
              exact .of_settled (buffered.joint_refuse garbles _)
                (.garblerFails _ (Evaluator.needsMessage_storing evaluatorTask _))
          | .ok .time =>
              obtain ⟨after, sent, storingAfter⟩ :=
                buffered.joint_time storing garbles (small garbles)
              refine (@inductionHypothesis (garbler.sending machine) after colored _
                (timed.snoc garbles) storingAfter inStep duets).after sent ?_
              exact Nat.add_comm 1 steps ▸ Nat.add_le_add_right (Nat.le_add_left 1 2) steps
          | .ok .done =>
              obtain ⟨after, sent, storingAfter⟩ :=
                buffered.joint_done storing garbles (small garbles)
              have sliced := timed.sliced (.done garbles)
              rw [buffered.program, buffered.timeSlice] at sliced duets
              have log : (garbler.sending machine).machine.processor.log = machine.processor.log :=
                rfl
              have wrapped : (Run.parties suite usable garblerTask evaluatorTask).Prospect agreed
                  (steps + 1) (.running ((garbler.sending machine).roundOf Garbler.wrapUp))
                  (.running (Evaluator.rounds usable evaluatorTask (.storing (evaluator, after)))) :=
                prospect_wrapUp lawful overflows colored sliced empty log storingAfter inStep duets
              exact wrapped.after sent (Nat.le_add_left _ _)

/-- What the evaluator does right after the setup. In buffered mode it opens its store. -/
def opening (usable : String → Bool) (task : Task) (transfer : LabelTransfer suite) :
    Session (LabelTransfer suite × suite.Generator) (Next (Evaluator.Phase suite) Outputs) := do
  match task.typed with
  | .continuous => return .again (.evaluating (.entered task transfer))
  | .buffered =>
      return .again (.storing (.entered task transfer, ← Evaluator.openStore usable task))

/-- The evaluator fails after the setup if it has no place for its batches. -/
theorem prospect_of_unusable (lawful : suite.Lawful)
    (buffered : Buffered garblerTask evaluatorTask) {error : StoreError}
    (unusable : Storage.select usable evaluatorTask.settings.storeDirectory = .error error)
    (garblerGenerator evaluatorGenerator : suite.Generator) :
    (Run.parties suite usable garblerTask evaluatorTask).Prospect agreed steps
      (.running (Garbler.rounds garblerTask (.entering garblerGenerator)))
      (.running (Evaluator.rounds usable evaluatorTask (.entering evaluatorGenerator))) := by
  obtain ⟨_, garblerTransfer, evaluatorTransfer, rest, _, enters⟩ :=
    agree_enter lawful garblerGenerator evaluatorGenerator
  have mode := buffered.mode
  rw [buffered.typed] at mode
  have fails : (opening usable evaluatorTask evaluatorTransfer).Fails (evaluatorTransfer, rest) []
      (.store error) (evaluatorTransfer, rest) := by
    rw [opening, mode, Evaluator.openStore, unusable]
    exact (fails_throw _ _).bind
  let garbler : Garbler suite := .entered garblerTask (Garbler.drawnOffset garblerGenerator)
    garblerTransfer (Garbler.enteredGenerator garblerGenerator)
  let entering : Session (LabelTransfer suite × suite.Generator) (Next (Garbler suite) Outputs) :=
    do return .again (← Garbler.enter garblerTask)
  have entered : Agree entering (Evaluator.enter evaluatorTask) ({}, garblerGenerator)
      ({}, evaluatorGenerator) _
      (.again garbler, (garblerTransfer, Garbler.enteredGenerator garblerGenerator)) _ :=
    (enters buffered.toAlike).garbler_then (succeeds_pure _ _)
  exact .of_settled (entered.garbler_again.trans (fails.evaluator_ends _))
    (.evaluatorFails _ (Garbler.needsMessage_slicing garblerTask garbler))

/-- From the start of a run any number of messages can be foreseen, unless one of the parties fails
or they play a duet to its end. -/
theorem prospect_entering (lawful : suite.Lawful) (buffered : Buffered garblerTask evaluatorTask)
    (overflows : ∀ error outputs, UInt64.size ≤ outputs.revealed.length →
      agreed (.error error) (.ok outputs))
    {garblerGenerator : suite.Generator}
    (duets : ∀ drafts revealed outputs,
      Duet.Whole garblerTask evaluatorTask garblerGenerator drafts revealed outputs →
      agreed (.ok { revealed }) (.ok { revealed, evaluatorOnly := outputs }))
    (evaluatorGenerator : suite.Generator) (steps : Nat) :
    (Run.parties suite usable garblerTask evaluatorTask).Prospect agreed steps
      (.running (Garbler.rounds garblerTask (.entering garblerGenerator)))
      (.running (Evaluator.rounds usable evaluatorTask (.entering evaluatorGenerator))) := by
  cases selected : Storage.select usable evaluatorTask.settings.storeDirectory with
  | error error =>
      exact buffered.prospect_of_unusable lawful selected garblerGenerator evaluatorGenerator
  | ok storage =>
      obtain ⟨message, garblerTransfer, evaluatorTransfer, rest, partners, enters⟩ :=
        agree_enter lawful garblerGenerator evaluatorGenerator
      have inStep : Machine.InStep (Garbler.drawnOffset garblerGenerator)
          (Garbler.entered garblerTask (Garbler.drawnOffset garblerGenerator) garblerTransfer
            (Garbler.enteredGenerator garblerGenerator)).machine
          (Evaluator.entered evaluatorTask evaluatorTransfer).machine := by
        rw [Evaluator.entered, ← buffered.program]
        exact .start _ ⟨rfl, rfl⟩
      refine (buffered.prospect_storing lawful overflows
        (Garbler.colored_drawnOffset garblerGenerator) .nil rfl
        (.start (partners garblerTask evaluatorTask) storage) inStep
        fun drafts revealed outputs duet => ?_).after
        (buffered.joint_enter selected (enters buffered.toAlike)) (Nat.le_add_left _ _)
      rw [Evaluator.entered, ← buffered.program] at duet
      exact duets drafts revealed outputs duet

end Buffered

end Garbling
