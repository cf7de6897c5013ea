import Mathlib
import Garbling.Proofs.ContinuousRun
import Garbling.Proofs.Stores

/-!
# The parts of a run in buffered mode

The evaluator stores the batches that the garbler sends. After the last one the labels of all
inputs are transferred, batch by batch, and then the evaluator replays the stored batches, while
the garbler waits for the openings.
-/

namespace Garbling

open Session

variable {suite : Suite} {usable : String → Bool} {offset : Offset}

namespace Draft

/-- The batches of some drafts as the evaluator finds them, the first with the given number. -/
def batches : (number : UInt64) → List Draft → List BatchPair
  | _, [] => []
  | number, draft :: drafts => (draft.batch number).onArrival :: batches (number + 1) drafts

/-- The zero labels of the evaluator's inputs, for each draft that has any. -/
def requests (drafts : List Draft) : List (List Label) :=
  (drafts.map fun draft => draft.evaluatorInputs.toList).filter (!·.isEmpty)

theorem batches_append (number : UInt64) (drafts : List Draft) (draft : Draft) :
    batches number (drafts ++ [draft]) = batches number drafts ++
      [(draft.batch (number + UInt64.ofNat drafts.length)).onArrival] := by
  induction drafts generalizing number with
  | nil => simp [batches]
  | cons first drafts inductionHypothesis =>
      rw [List.cons_append, batches, inductionHypothesis, batches, List.cons_append,
        List.length_cons]
      simp [UInt64.add_assoc, UInt64.add_comm]

theorem requests_cons (draft : Draft) (drafts : List Draft) :
    requests (draft :: drafts) =
      if draft.evaluatorInputs.toList.isEmpty then requests drafts
      else draft.evaluatorInputs.toList :: requests drafts := by
  simp only [requests, List.map_cons, List.filter_cons]
  split <;> simp_all

theorem requests_append (drafts : List Draft) (draft : Draft) :
    requests (drafts ++ [draft]) = requests drafts ++
      if draft.evaluatorInputs.toList.isEmpty then [] else [draft.evaluatorInputs.toList] := by
  simp only [requests, List.map_append, List.filter_append, List.map_cons, List.map_nil,
    List.filter_cons, List.filter_nil]
  cases draft.evaluatorInputs.toList.isEmpty <;> rfl

/-- The requests are for all inputs. -/
theorem sum_requests (drafts : List Draft) :
    ((requests drafts).map List.length).sum =
      (drafts.map fun draft => draft.evaluatorInputs.size).sum := by
  induction drafts with
  | nil => rfl
  | cons draft drafts inductionHypothesis =>
      rw [requests_cons, List.map_cons, List.sum_cons, ← inductionHypothesis]
      split
      · next nothing =>
          have none : draft.evaluatorInputs.size = 0 := by simpa using nothing
          rw [none, Nat.zero_add]
      · rw [List.map_cons, List.sum_cons, Array.length_toList]

/-- There is no request for nothing. -/
theorem requests_ne_nil (drafts : List Draft) (zeroLabels : List Label)
    (member : zeroLabels ∈ requests drafts) : zeroLabels ≠ [] := by
  have kept := (List.mem_filter.mp member).2
  rintro rfl
  cases kept

/-- The requests of small drafts can be counted by words. -/
theorem requests_short {drafts : List Draft} (small : ∀ draft ∈ drafts, draft.Small)
    (zeroLabels : List Label) (member : zeroLabels ∈ requests drafts) :
    zeroLabels.length < UInt64.size := by
  obtain ⟨draft, found, rfl⟩ := List.mem_map.mp (List.mem_filter.mp member).1
  rw [Array.length_toList]
  exact small draft found .evaluatorInput (by decide)

/-- The number of inputs that a batch tells is that of its request, if there is one. -/
theorem inputCount_batch {draft : Draft} (small : draft.Small) (number : UInt64) :
    (draft.batch number).onArrival.inputCount =
      if draft.evaluatorInputs.toList.isEmpty then []
      else [UInt64.ofNat draft.evaluatorInputs.toList.length] := by
  have bound : draft.evaluatorInputs.size < UInt64.size := small .evaluatorInput (by decide)
  have count : (UInt64.ofNat draft.evaluatorInputs.size).toNat = draft.evaluatorInputs.size :=
    UInt64.toNat_ofNat_of_lt' bound
  have told : (draft.batch number).onArrival.gates.evaluatorInputs =
      UInt64.ofNat draft.evaluatorInputs.size := rfl
  rw [BatchPair.inputCount, told, Array.length_toList]
  by_cases nothing : draft.evaluatorInputs.size = 0
  · rw [nothing, if_neg (by decide), if_pos (by simpa using nothing)]
  · have positive : 0 < UInt64.ofNat draft.evaluatorInputs.size := by
      rw [UInt64.lt_iff_toNat_lt, count]
      exact Nat.pos_of_ne_zero nothing
    rw [if_pos positive, if_neg (by simpa using nothing)]

/-- A batch can be written down and read back once it has arrived. -/
theorem Small.countable {draft : Draft} (small : draft.Small) (number : UInt64) :
    (draft.batch number).onArrival.Countable where
  gates := small .gate (by decide)
  garblerInputs := small .garblerInput (by decide)
  masks := by
    refine (List.length_take_le _ _).trans_lt (Nat.mod_lt _ (by decide))

end Draft

/-- The labels that the choices select for some requests, one request after the other. -/
def answers (offset : Offset) : List (List Label) → List Bool → List (List Label)
  | [], _ => []
  | zeroLabels :: requests, choices =>
      zeroLabels.zipWith (·.active offset ·) choices ::
        answers offset requests (choices.drop zeroLabels.length)

/-- The parties while batches are stored: what the evaluator has stored are the batches of the
given drafts, and the garbler has queued the labels of their inputs. -/
structure Storing (drafts : List Draft) (garbler : Garbler suite) (evaluator : Evaluator suite)
    (stored : StoredRun) : Prop where
  linked : LabelTransfer.Linked garbler.offset garbler.transfer evaluator.transfer
  queued : garbler.transfer.queued = Draft.requests drafts
  number : garbler.nextBatch = evaluator.nextBatch + UInt64.ofNat drafts.length
  holds : stored.Holds (Draft.batches evaluator.nextBatch drafts) []
  counts : stored.inputCounts =
    (Draft.requests drafts).map fun zeroLabels => UInt64.ofNat zeroLabels.length
  gates : stored.gates.Fillable
  masks : stored.masks.Fillable

namespace Storing

variable {drafts : List Draft} {garbler : Garbler suite} {evaluator : Evaluator suite}
  {stored : StoredRun}

/-- Nothing has been stored at the start. -/
theorem start (partners : Partners garbler evaluator) (storage : Storage) :
    Storing [] garbler evaluator (.empty storage) where
  linked := partners.linked
  queued := partners.served
  number := by simpa using partners.number
  holds := .empty storage
  counts := rfl
  gates := Store.fillable_empty storage
  masks := Store.fillable_empty storage

/-- The batch of one more slice can be stored. -/
theorem push (storing : Storing drafts garbler evaluator stored)
    {machine : Machine Label (GarblingState suite)} (small : machine.backend.draft.Small) :
    ∃ after, stored.push (machine.backend.draft.batch garbler.nextBatch).onArrival =
        (.ok (), after) ∧
      Storing (drafts ++ [machine.backend.draft]) ({ garbler with machine } : Garbler suite).afterBatch
        evaluator after := by
  obtain ⟨after, pushed, gates, masks⟩ := StoredRun.push_of_fillable storing.gates storing.masks
    (machine.backend.draft.batch garbler.nextBatch).onArrival
  obtain ⟨holds, counts⟩ := storing.holds.of_push (small.countable garbler.nextBatch) pushed
  refine ⟨after, pushed, storing.linked.enqueue _, ?_, ?_, ?_, ?_, gates, masks⟩
  · rw [Draft.requests_append, ← storing.queued]
    exact congrArg LabelTransfer.queued (LabelTransfer.enqueue_eq _ _)
  · rw [List.length_append, List.length_singleton]
    change garbler.nextBatch + 1 = _
    rw [storing.number]
    simp [UInt64.add_assoc]
  · rw [Draft.batches_append, ← storing.number]
    exact holds
  · rw [counts, storing.counts, Draft.inputCount_batch small, Draft.requests_append]
    split
    · rw [List.append_nil, List.append_nil]
    · rw [List.map_append]
      rfl

end Storing

/-- The evaluator stores the batch that the garbler sends. -/
theorem agree_storeBatch {garbler : Garbler suite} {evaluator : Evaluator suite}
    {stored after : StoredRun}
    (writable : (garbler.machine.backend.draft.batch garbler.nextBatch).Writable)
    (pushed : stored.push (garbler.machine.backend.draft.batch garbler.nextBatch).onArrival =
      (.ok (), after)) :
    Agree Garbler.sendSlice Evaluator.storeBatch garbler (evaluator, stored)
      (BatchStream.messages (garbler.machine.backend.draft.batch garbler.nextBatch))
      ((), garbler.afterBatch) (false, (evaluator, after)) := by
  refine Agree.evaluator_then (Garbler.agree_sendSlice writable) ?_
  apply Succeeds.bind (succeeds_get (evaluator, stored))
  simp only [pushed]
  apply Succeeds.bind (succeeds_set _ _)
  exact succeeds_pure _ _

/-- The labels of one request are transferred while batches are stored. -/
theorem agree_answer_storing (lawful : suite.Lawful) {garbler : LabelTransfer suite}
    {evaluator : Evaluator suite} {zeroLabels : List Label}
    (linked : LabelTransfer.Linked offset garbler evaluator.transfer) (some : zeroLabels ≠ [])
    (enough : zeroLabels.length ≤ evaluator.inputs.length)
    (short : zeroLabels.length < UInt64.size) (rest : List (List Label)) (stored : StoredRun) :
    ∃ messages garblerAfter evaluatorTransfer,
      Agree (LabelTransfer.serveBatch zeroLabels rest)
        (Evaluator.withEvaluator
          (Evaluator.receiveInputLabels (UInt64.ofNat zeroLabels.length))) garbler
        (evaluator, stored) messages ((), garblerAfter)
        (zeroLabels.zipWith (·.active offset ·) evaluator.inputs,
          ({ evaluator with
              transfer := evaluatorTransfer
              inputs := evaluator.inputs.drop zeroLabels.length }, stored)) ∧
      LabelTransfer.Linked offset garblerAfter evaluatorTransfer ∧
      Transcript.Carries messages [] := by
  obtain ⟨messages, garblerAfter, evaluatorTransfer, answered, linkedAfter, _, carries⟩ :=
    agree_answer lawful linked some enough short rest
  refine ⟨messages, garblerAfter, evaluatorTransfer, ?_, linkedAfter, carries⟩
  apply Agree.zoom_evaluator
  exact answered

/-- The labels of all requests are transferred, one request after the other. -/
theorem agree_storeInputLabels (lawful : suite.Lawful) {requests : List (List Label)}
    {garbler : LabelTransfer suite} {evaluator : Evaluator suite} {stored : StoredRun}
    (linked : LabelTransfer.Linked offset garbler evaluator.transfer)
    (some : ∀ zeroLabels ∈ requests, zeroLabels ≠ [])
    (short : ∀ zeroLabels ∈ requests, zeroLabels.length < UInt64.size)
    (enough : (requests.map List.length).sum ≤ evaluator.inputs.length) :
    ∃ messages garblerAfter evaluatorTransfer,
      Agree (LabelTransfer.serveAll requests)
        (Evaluator.storeInputLabels (requests.map fun zeroLabels => UInt64.ofNat zeroLabels.length))
        garbler (evaluator, stored) messages ((), garblerAfter)
        ((), ({ evaluator with
            transfer := evaluatorTransfer
            inputs := evaluator.inputs.drop (requests.map List.length).sum },
          { stored with
            inputLabels := stored.inputLabels ++ answers offset requests evaluator.inputs })) ∧
      LabelTransfer.Linked offset garblerAfter evaluatorTransfer ∧
      Transcript.Carries messages [] := by
  induction requests generalizing garbler evaluator stored with
  | nil =>
      refine ⟨[], garbler, evaluator.transfer, ?_, linked, .nil⟩
      rw [answers, List.append_nil]
      exact agree_of_silent (succeeds_pure _ _) (succeeds_pure _ _)
  | cons zeroLabels requests inductionHypothesis =>
      obtain ⟨someHead, someTail⟩ := List.forall_mem_cons.mp some
      obtain ⟨shortHead, shortTail⟩ := List.forall_mem_cons.mp short
      rw [List.map_cons, List.sum_cons] at enough
      obtain ⟨messages, garblerMiddle, middleTransfer, answered, linkedMiddle, carries⟩ :=
        agree_answer_storing lawful linked someHead (by omega) shortHead requests stored
      obtain ⟨more, garblerAfter, evaluatorTransfer, others, linkedAfter, carriesMore⟩ :=
        @inductionHypothesis garblerMiddle
          { evaluator with
            transfer := middleTransfer
            inputs := evaluator.inputs.drop zeroLabels.length }
          (stored.pushInputLabels (zeroLabels.zipWith (·.active offset ·) evaluator.inputs))
          linkedMiddle someTail shortTail (by simp only [List.length_drop]; omega)
      refine ⟨messages ++ more, garblerAfter, evaluatorTransfer, ?_, linkedAfter,
        carries.append carriesMore⟩
      rw [LabelTransfer.serveAll_cons]
      apply Agree.bind answered
      apply Agree.bind_evaluator (succeeds_modify _ _)
      simpa only [answers, StoredRun.pushInputLabels, List.map_cons, List.sum_cons,
        List.append_assoc, List.singleton_append, List.drop_drop] using others

/-- The tasks of both parties for the same run in buffered mode. -/
structure Buffered (garbler evaluator : Task) : Prop extends Alike garbler evaluator where
  mode : garbler.typed = .buffered

namespace Garbler

/-- What the garbler does after all labels have been transferred. -/
def await : Session (Garbler suite) (Next Unit Outputs) := do
  receiveOpenings
  return .finish (← get).outputs

/-- What the garbler does in buffered mode after the last batch. -/
def wrapUp : Session (Garbler suite) (Next Unit Outputs) := do
  BatchStream.sendDone
  serveInputs
  await

theorem wrapUp_eq : (wrapUp : Session (Garbler suite) _) =
    ((BatchStream.sendDone >>= fun _ => serveInputs) >>= fun _ => await) := by
  rw [bind_assoc]
  rfl

/-- The garbler once the batch of a slice is on its way. -/
abbrev sending (garbler : Garbler suite) (machine : Machine Label (GarblingState suite)) :
    Garbler suite :=
  afterBatch { garbler with machine }

end Garbler

namespace Evaluator

/-- The round in which the evaluator stores a batch. -/
def storeRound : Session (Buffering suite) (Next Bool Outputs) := do
  return .again (← storeBatch)

/-- The round in which the evaluator replays a batch. -/
def replayRound (task : Task) : Session (Buffering suite) (Next Unit Outputs) := do
  match ← replaySlice task with
  | none => return .again ()
  | some outputs => return .finish outputs

end Evaluator

namespace Buffered

variable {garblerTask evaluatorTask : Task} {garbler : Garbler suite} {evaluator : Evaluator suite}
  {stored : StoredRun} {drafts : List Draft} {machine : Machine Label (GarblingState suite)}

/-- The round of the garbler is a slice in buffered mode. -/
theorem rounds_slicing (buffered : Buffered garblerTask evaluatorTask) (garbler : Garbler suite) :
    Garbler.rounds garblerTask (.slicing garbler) =
      garbler.roundOf (Garbler.sliceBuffered garblerTask) := by
  rw [Garbler.rounds, Garbler.slice, buffered.mode]

/-- The garbler refuses to go on after a slice that asks for a restart. -/
theorem joint_refuse (buffered : Buffered garblerTask evaluatorTask)
    (executes : Machine.execute (GarblingState.backend suite garbler.offset) garblerTask.program
      garblerTask.settings.timeSlice.toNat garbler.machine = (.ok .restart, machine))
    (evaluator : Activity (Evaluator.Phase suite) Run.Outcome) :
    (Run.parties suite usable garblerTask evaluatorTask).Joint
      (.running (Garbler.rounds garblerTask (.slicing garbler))) evaluator [] []
      (.ended (.error (.settings (.restartInBufferedMode .garbler)))) evaluator := by
  rw [buffered.rounds_slicing]
  have fails : (Garbler.sliceBuffered garblerTask).Fails garbler []
      (.settings (.restartInBufferedMode .garbler)) { garbler with machine } :=
    (Garbler.executeSlice_succeeds executes).fails (fails_throw _ _)
  exact fails.garbler_ends evaluator

/-- The garbler sends the batch of a slice after which the program goes on. -/
theorem joint_time (buffered : Buffered garblerTask evaluatorTask)
    (storing : Storing drafts garbler evaluator stored)
    (executes : Machine.execute (GarblingState.backend suite garbler.offset) garblerTask.program
      garblerTask.settings.timeSlice.toNat garbler.machine = (.ok .time, machine))
    (small : machine.backend.draft.Small) :
    ∃ after, (Run.parties suite usable garblerTask evaluatorTask).Joint
        (.running (Garbler.rounds garblerTask (.slicing garbler)))
        (.running (Evaluator.rounds usable evaluatorTask (.storing (evaluator, stored))))
        (BatchStream.messages (machine.backend.draft.batch garbler.nextBatch))
        [.slicing (garbler.sending machine)]
        (.running (Garbler.rounds garblerTask (.slicing (garbler.sending machine))))
        (.running (Evaluator.rounds usable evaluatorTask (.storing (evaluator, after)))) ∧
      Storing (drafts ++ [machine.backend.draft]) (garbler.sending machine) evaluator after := by
  obtain ⟨after, pushed, storingAfter⟩ := storing.push small
  have writable := small.writable garbler.nextBatch
  have sent : Agree Garbler.sendSlice Evaluator.storeBatch { garbler with machine }
      (evaluator, stored) (BatchStream.messages (machine.backend.draft.batch garbler.nextBatch))
      ((), garbler.sending machine) (false, (evaluator, after)) :=
    agree_storeBatch writable pushed
  have whole : Agree (Garbler.slice garblerTask) Evaluator.storeRound
      garbler (evaluator, stored)
      (BatchStream.messages (machine.backend.draft.batch garbler.nextBatch))
      (.again (), garbler.sending machine) (.again false, (evaluator, after)) := by
    rw [Garbler.slice, buffered.mode]
    apply Agree.bind_garbler (Garbler.executeSlice_succeeds executes)
    refine Agree.garbler_then (Agree.evaluator_then sent ?_) ?_
    · exact succeeds_pure _ _
    · exact succeeds_pure _ _
  exact ⟨after, whole.again, storingAfter⟩

/-- The garbler sends the batch of the last slice. -/
theorem joint_done (buffered : Buffered garblerTask evaluatorTask)
    (storing : Storing drafts garbler evaluator stored)
    (executes : Machine.execute (GarblingState.backend suite garbler.offset) garblerTask.program
      garblerTask.settings.timeSlice.toNat garbler.machine = (.ok .done, machine))
    (small : machine.backend.draft.Small) :
    ∃ after, (Run.parties suite usable garblerTask evaluatorTask).Joint
        (.running (Garbler.rounds garblerTask (.slicing garbler)))
        (.running (Evaluator.rounds usable evaluatorTask (.storing (evaluator, stored))))
        (BatchStream.messages (machine.backend.draft.batch garbler.nextBatch)) []
        (.running ((garbler.sending machine).roundOf Garbler.wrapUp))
        (.running (Evaluator.rounds usable evaluatorTask (.storing (evaluator, after)))) ∧
      Storing (drafts ++ [machine.backend.draft]) (garbler.sending machine) evaluator after := by
  obtain ⟨after, pushed, storingAfter⟩ := storing.push small
  have writable := small.writable garbler.nextBatch
  have sent : Agree Garbler.sendSlice Evaluator.storeRound
      { garbler with machine } (evaluator, stored)
      (BatchStream.messages (machine.backend.draft.batch garbler.nextBatch))
      ((), garbler.sending machine) (.again false, (evaluator, after)) :=
    Agree.evaluator_then (agree_storeBatch writable pushed) (succeeds_pure _ _)
  refine ⟨after, ?_, storingAfter⟩
  rw [buffered.rounds_slicing, Garbler.roundOf, Garbler.sliceBuffered,
    toRound_of_succeeds (Garbler.executeSlice_succeeds executes)]
  exact sent.evaluator_again

/-- The garbler ends the stream and serves all inputs. -/
theorem joint_wrapUp (lawful : suite.Lawful)
    (storing : Storing drafts garbler evaluator stored) (small : ∀ draft ∈ drafts, draft.Small)
    (enough : (drafts.map fun draft => draft.evaluatorInputs.size).sum ≤ evaluator.inputs.length) :
    ∃ messages garblerTransfer evaluatorAfter after,
      (Run.parties suite usable garblerTask evaluatorTask).Joint
        (.running (garbler.roundOf Garbler.wrapUp))
        (.running (Evaluator.rounds usable evaluatorTask (.storing (evaluator, stored)))) messages []
        (.running (({ garbler with transfer := garblerTransfer } : Garbler suite).roundOf
          Garbler.await))
        (.running (Evaluator.rounds usable evaluatorTask (.replaying (evaluatorAfter, after)))) ∧
      Transcript.Carries messages [.done] ∧ evaluatorAfter.machine = evaluator.machine ∧
      evaluatorAfter.nextBatch = evaluator.nextBatch ∧
      after.Holds (Draft.batches evaluator.nextBatch drafts)
        (answers garbler.offset (Draft.requests drafts) evaluator.inputs) := by
  rw [← Draft.sum_requests] at enough
  let told : StoredRun := { stored with inputCounts := [] }
  obtain ⟨messages, garblerTransfer, evaluatorTransfer, served, _, carries⟩ :=
    @agree_storeInputLabels suite garbler.offset lawful _ _ _ told storing.linked
      (Draft.requests_ne_nil drafts) (Draft.requests_short small) enough
  let answered : Evaluator suite :=
    { evaluator with
      transfer := evaluatorTransfer
      inputs := evaluator.inputs.drop ((Draft.requests drafts).map List.length).sum }
  let complete : StoredRun :=
    { told with
      inputLabels := stored.inputLabels ++
        answers garbler.offset (Draft.requests drafts) evaluator.inputs }
  have serves : Agree Garbler.serveInputs (Evaluator.storeInputLabels stored.inputCounts) garbler
      (evaluator, told) messages ((), { garbler with transfer := garblerTransfer })
      ((), (answered, complete)) := by
    rw [storing.counts]
    apply Agree.zoom_garbler
    apply Agree.bind_garbler (succeeds_get garbler.transfer)
    rw [storing.queued]
    exact served
  have stores : Agree (BatchStream.sendDone >>= fun _ => Garbler.serveInputs)
      Evaluator.storeBatch garbler (evaluator, stored) ([BatchStream.tag .done] ++ messages)
      ((), { garbler with transfer := garblerTransfer }) (true, (answered, complete)) := by
    apply Agree.bind (BatchStream.agree_done garbler (evaluator, stored))
    apply Agree.bind_evaluator (succeeds_modifyGet _ (evaluator, stored))
    exact Agree.evaluator_then serves (succeeds_pure _ _)
  have last : Agree (BatchStream.sendDone >>= fun _ => Garbler.serveInputs)
      Evaluator.storeRound garbler (evaluator, stored) ([BatchStream.tag .done] ++ messages)
      ((), { garbler with transfer := garblerTransfer }) (.again true, (answered, complete)) :=
    Agree.evaluator_then stores (succeeds_pure _ _)
  refine ⟨_, garblerTransfer, answered, complete, ?_, Transcript.carries_done.append carries, rfl,
    rfl, storing.holds.gates, storing.holds.masks, ?_⟩
  · rw [Garbler.roundOf, Garbler.wrapUp_eq]
    exact last.evaluator_again
  · exact congrArg (· ++ _) storing.holds.labels

end Buffered

/-- The oldest stored batch is taken out with the labels for it. -/
theorem StoredRun.Holds.pop_draft {run : StoredRun} {number : UInt64} {draft : Draft}
    {drafts : List Draft} {inputs : List Bool}
    (holds : run.Holds (Draft.batches number (draft :: drafts))
      (answers offset (Draft.requests (draft :: drafts)) inputs))
    (short : draft.evaluatorInputs.size < UInt64.size) :
    ∃ after, run.pop number =
        (.ok ((draft.batch number).onArrival, draft.select offset inputs), after) ∧
      after.Holds (Draft.batches (number + 1) drafts) (answers offset (Draft.requests drafts)
        (inputs.drop draft.evaluatorInputs.size)) := by
  obtain ⟨left, popped, held⟩ := holds.popPair
  have told : (draft.batch number).onArrival.gates.evaluatorInputs =
      UInt64.ofNat draft.evaluatorInputs.size := rfl
  have first : (draft.batch number).onArrival.gates.number = number := rfl
  have second : (draft.batch number).onArrival.masks.number = number := rfl
  have count : (UInt64.ofNat draft.evaluatorInputs.size).toNat = draft.evaluatorInputs.size :=
    UInt64.toNat_ofNat_of_lt' short
  rw [Draft.requests_cons] at held
  simp only [StoredRun.pop, popped, first, second, told, ne_eq, not_true, if_false]
  by_cases nothing : draft.evaluatorInputs.size = 0
  · have none : draft.evaluatorInputs.toList = [] := by simpa using nothing
    have zero : UInt64.ofNat draft.evaluatorInputs.size = 0 := by
      rw [nothing]
      rfl
    rw [if_pos zero, nothing, List.drop_zero, Draft.select, none]
    refine ⟨left, rfl, ?_⟩
    simpa [none] using held
  · have some : ¬draft.evaluatorInputs.toList.isEmpty = true := by simpa using nothing
    have positive : UInt64.ofNat draft.evaluatorInputs.size ≠ 0 := by
      intro zero
      rw [zero] at count
      exact nothing count.symm
    rw [if_neg some] at held
    rw [if_neg positive, held.labels, answers]
    refine ⟨_, rfl, held.gates, held.masks, ?_⟩
    rw [Array.length_toList]

namespace Evaluator

variable {task : Task} {evaluator : Evaluator suite} {stored after : StoredRun}
  {batch : BatchPair} {labels : List Label} {reader : BatchReader}

/-- What the evaluator does after it has replayed the instructions of a slice. -/
def afterReplay : Break → Session (Buffering suite) (Option Outputs)
  | .restart => throw (.settings (.restartInBufferedMode .evaluator))
  | .time => do
      withEvaluator finishBatch
      return none
  | .done => do
      withEvaluator finishBatch
      let remaining := (← get).2.remaining
      if 0 < remaining then
        throw (.violation (.trailingBatches remaining))
      return some (← withEvaluator conclude)

theorem withEvaluator_succeeds {α : Type} {session : Session (Evaluator suite) α} {value : α}
    {next : Evaluator suite} (succeeds : session.Succeeds evaluator [] value next)
    (stored : StoredRun) :
    (withEvaluator session).Succeeds (evaluator, stored) [] value (next, stored) :=
  zoom_succeeds.mpr ⟨next, succeeds, rfl⟩

/-- The evaluator replays a slice without exchanging anything. -/
theorem replaySlice_apply
    (popped : stored.pop evaluator.nextBatch = (.ok (batch, labels), after))
    (position : evaluator.checkPosition batch.gates = .ok ())
    (made : BatchReader.ofBatch batch labels = .ok reader) {ending : Break}
    {machine : Machine Label EvaluationState}
    (executes : Machine.execute (EvaluationState.backend suite.pad) task.program
      task.settings.timeSlice.toNat (evaluator.machine.loaded reader) = (.ok ending, machine)) :
    replaySlice task (evaluator, stored) = afterReplay ending
      ({ evaluator with machine, nextBatch := evaluator.nextBatch + 1 }, after) := by
  have loaded := withEvaluator_succeeds (load_succeeds position made) after
  have executed := withEvaluator_succeeds (@executeSlice_succeeds suite task
    { evaluator with
      machine := evaluator.machine.loaded reader
      nextBatch := evaluator.nextBatch + 1 } ending machine executes) after
  unfold replaySlice
  rw [bind_apply_of_succeeds (succeeds_get (evaluator, stored))]
  simp only [popped]
  rw [bind_apply_of_succeeds (succeeds_set _ _), bind_apply_of_succeeds loaded,
    bind_apply_of_succeeds executed]
  cases ending <;> rfl

end Evaluator

end Garbling
