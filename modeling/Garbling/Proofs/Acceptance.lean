import Mathlib
import Garbling.Proofs.Accounting
import Garbling.Proofs.ContinuousRun
import Garbling.Proofs.Reception
import Garbling.Proofs.Utterances

/-!
# Accepted streams

An evaluator that comes to its end has been sent exactly the batches that the program needs,
whatever the other party is. In both modes the slices that it has executed and the batches
belong together one by one: each batch has the number of its slice and the right first gate, and
contains what the executed instructions need.
-/

namespace Garbling

open Session

variable {suite : Suite} {number gates : Nat} {batch : BatchPair} {executed : List Instruction}

/-- The batch is right for a slice with the given number that begins at the given gate and
executes the instructions. -/
structure AcceptedAt (number gates : Nat) (batch : BatchPair) (executed : List Instruction) :
    Prop where
  gatesNumber : batch.gates.number = UInt64.ofNat number
  masksNumber : batch.masks.number = UInt64.ofNat number
  firstGate : batch.gates.firstGate = UInt64.ofNat gates
  amount : ∀ item, batch.amount item = Instruction.allNeed executed item

/-- The batches are right for slices that follow one another. -/
inductive AcceptedFrom : (number gates : Nat) → List (BatchPair × List Instruction) → Prop
  | nil {number gates : Nat} : AcceptedFrom number gates []
  | cons {number gates : Nat} {batch : BatchPair} {executed : List Instruction}
      {slices : List (BatchPair × List Instruction)}
      (head : AcceptedAt number gates batch executed)
      (tail : AcceptedFrom (number + 1) (gates + batch.amount .gate) slices) :
      AcceptedFrom number gates ((batch, executed) :: slices)

/-- Each batch has the number of its slice, and begins at the gate after all gates before it. -/
theorem AcceptedFrom.at_index {slices : List (BatchPair × List Instruction)}
    (accepted : AcceptedFrom number gates slices) {index : Nat}
    (found : slices[index]? = some (batch, executed)) :
    AcceptedAt (number + index)
      (gates + ((slices.take index).map fun slice => slice.1.amount .gate).sum) batch executed := by
  induction accepted generalizing index with
  | nil => simp at found
  | cons head tail inductionHypothesis =>
      cases index with
      | zero =>
          cases found
          exact head
      | succ index =>
          have later := inductionHypothesis found
          rw [Nat.add_right_comm] at later
          rw [List.take_succ_cons, List.map_cons, List.sum_cons, ← Nat.add_assoc,
            ← Nat.add_assoc]
          exact later

/-- The evaluator waits for the batch with the given number, which begins at the given gate. -/
structure Evaluator.Placed (number gates : Nat) (evaluator : Evaluator suite) : Prop where
  lowered : evaluator.machine.processor.taint = {}
  number : evaluator.nextBatch = UInt64.ofNat number
  gates : evaluator.machine.backend.gateCount = UInt64.ofNat gates

theorem BatchReader.numbers_of_ofBatch {labels : List Label} {reader : BatchReader}
    (made : ofBatch batch labels = .ok reader) : batch.gates.number = batch.masks.number := by
  unfold ofBatch at made
  split at made
  · cases made
  · next same => exact not_not.mp same

namespace Evaluator

variable {task : Task} {evaluator : Evaluator suite} {labels : List Label} {reader : BatchReader}
  {ending : Break} {after : Machine Label EvaluationState}

/-- A batch that is used up holds what the slice needs, and its gates are counted. -/
theorem amount_of_slice (lowered : evaluator.machine.processor.taint = {})
    (made : BatchReader.ofBatch batch labels = .ok reader)
    (slice : Machine.Slice (EvaluationState.backend suite.pad) task.program
      task.settings.timeSlice.toNat (evaluator.machine.loaded reader) executed ending after)
    (finished : after.backend.reader.finish = .ok ()) :
    (∀ item, batch.amount item = Instruction.allNeed executed item) ∧
      after.backend.gateCount =
        evaluator.machine.backend.gateCount + UInt64.ofNat (batch.amount .gate) := by
  obtain ⟨amounts, count⟩ := EvaluationState.amount_of_effects (slice.effects lowered)
  have nothing := BatchReader.finish_eq_ok_iff.mp finished
  have amount (item : Item) : batch.amount item = Instruction.allNeed executed item := by
    have used := amounts item
    rw [nothing item, Nat.add_zero] at used
    rw [← BatchReader.amount_of_ofBatch made item]
    exact used
  refine ⟨amount, ?_⟩
  rw [count, amount]
  rfl

/-- A batch that has the right position and is used up is right for its slice. -/
theorem Placed.accepts (placed : evaluator.Placed number gates)
    (position : evaluator.checkPosition batch.gates = .ok ())
    (made : BatchReader.ofBatch batch labels = .ok reader)
    (slice : Machine.Slice (EvaluationState.backend suite.pad) task.program
      task.settings.timeSlice.toNat (evaluator.machine.loaded reader) executed ending after)
    (finished : after.backend.reader.finish = .ok ()) :
    AcceptedAt number gates batch executed ∧ after.processor.taint = {} ∧
      after.backend.gateCount = UInt64.ofNat (gates + batch.amount .gate) := by
  obtain ⟨sameNumber, firstGate⟩ := checkPosition_eq_ok.mp position
  obtain ⟨amount, count⟩ := amount_of_slice placed.lowered made slice finished
  refine ⟨⟨sameNumber.trans placed.number, ?_, firstGate.trans placed.gates, amount⟩,
    slice.taint placed.lowered, ?_⟩
  · rw [← BatchReader.numbers_of_ofBatch made]
    exact sameNumber.trans placed.number
  · rw [count, UInt64.ofNat_add, placed.gates]

/-- The evaluator executes slices in the rounds of this phase. -/
def Phase.isExecuting : Phase suite → Bool
  | .evaluating _ | .replaying _ => true
  | .entering _ | .storing _ => false

/-- In a round with the given exchanges the evaluator executes the instructions on the batch, as
one slice. -/
inductive Executes (task : Task) : Phase suite × List Exchange → BatchPair → List Instruction → Prop
  | evaluating {evaluator middle : Evaluator suite} {first second rest : List Exchange}
      {batch : BatchPair} {labels : List Label} {reader : BatchReader}
      {executed : List Instruction} {ending : Break} {after : Machine Label EvaluationState}
      (received : BatchStream.receive.Succeeds evaluator first (some batch) evaluator)
      (labelled : (receiveInputLabels batch.gates.evaluatorInputs).Succeeds evaluator second labels
        middle)
      (made : BatchReader.ofBatch batch labels = .ok reader)
      (slice : Machine.Slice (EvaluationState.backend suite.pad) task.program
        task.settings.timeSlice.toNat (evaluator.machine.loaded reader) executed ending after) :
      Executes task (.evaluating evaluator, first ++ (second ++ rest)) batch executed
  | replaying {evaluator : Evaluator suite} {stored left : StoredRun} {exchanges : List Exchange}
      {batch : BatchPair} {labels : List Label} {reader : BatchReader}
      {executed : List Instruction} {ending : Break} {after : Machine Label EvaluationState}
      (popped : stored.pop evaluator.nextBatch = (.ok (batch, labels), left))
      (made : BatchReader.ofBatch batch labels = .ok reader)
      (slice : Machine.Slice (EvaluationState.backend suite.pad) task.program
        task.settings.timeSlice.toNat (evaluator.machine.loaded reader) executed ending after) :
      Executes task (.replaying (evaluator, stored), exchanges) batch executed

variable {exchanges : List Exchange} {middle final : Evaluator suite} {result : Next Unit Outputs}

/-- What comes of a round in continuous mode if its slice has ended so, and what the evaluator is
like then. -/
def closed (evaluator : Evaluator suite) : Break → Next Unit Outputs × Evaluator suite
  | .restart => (.again (),
      { evaluator with
        machine := evaluator.machine.resumed evaluator.machine.processor.log.opening })
  | .time => (.again (), evaluator)
  | .done =>
      (.finish { revealed := evaluator.machine.processor.log.opening.revealed
                 evaluatorOnly := evaluator.machine.backend.outputs.toList },
        evaluator.opened evaluator.machine.processor.log.opening)

/-- What the evaluator sends in continuous mode if a slice has ended so. -/
def answers (evaluator : Evaluator suite) : Break → List Bytes
  | .time => []
  | .restart | .done =>
      [Layout.fixed.openings.encode evaluator.machine.processor.log.takeOpenings.1]

/-- At the end of a slice in continuous mode the evaluator is told nothing, unless it finishes:
then it is told that the stream is over. -/
theorem of_close (succeeds : (close ending).Succeeds evaluator exchanges result final) :
    (result, final) = evaluator.closed ending ∧
      Exchange.outgoing exchanges = evaluator.answers ending ∧
      Tells exchanges (if ending = .done then [.done] else []) := by
  cases ending with
  | restart =>
      obtain ⟨_, _, _, _, rfl, rewound, others⟩ := bind_succeeds.mp succeeds
      obtain ⟨rfl, rfl⟩ := modify_succeeds.mp rewound
      obtain ⟨_, _, _, _, rfl, sent, last⟩ := bind_succeeds.mp others
      obtain ⟨rfl, rfl⟩ := of_sendOpenings sent
      obtain ⟨rfl, rfl, rfl⟩ := pure_succeeds.mp last
      exact ⟨rfl, rfl, .out _⟩
  | time =>
      obtain ⟨rfl, rfl, rfl⟩ := pure_succeeds.mp succeeds
      exact ⟨rfl, rfl, .nil⟩
  | done =>
      obtain ⟨_, _, more, _, rfl, received, others⟩ := bind_succeeds.mp succeeds
      cases more with
      | some batch => exact (throw_succeeds.mp others).elim
      | none =>
          obtain ⟨rfl, rfl⟩ := BatchStream.exchanges_of_receive_none received
          obtain ⟨_, _, _, _, rfl, concluded, last⟩ := bind_succeeds.mp others
          obtain ⟨rfl, rfl, rfl⟩ := of_conclude concluded
          obtain ⟨rfl, rfl, rfl⟩ := pure_succeeds.mp last
          exact ⟨rfl, rfl, Transcript.carries_done⟩

/-- A round in continuous mode, taken apart: the evaluator receives a batch and then the labels of
the inputs that belong to it, executes a slice on both, and closes the slice. -/
inductive Round (task : Task) (evaluator : Evaluator suite) (batch : BatchPair)
    (executed : List Instruction) (ending : Break) (after : Machine Label EvaluationState)
    (transfer : LabelTransfer suite) : List Exchange → Next Unit Outputs → Evaluator suite → Prop
  | intro {first second rest : List Exchange} {labels : List Label} {reader : BatchReader}
      {result : Next Unit Outputs} {final : Evaluator suite}
      (received : BatchStream.receive.Succeeds evaluator first (some batch) evaluator)
      (position : evaluator.checkPosition batch.gates = .ok ())
      (labelled : (receiveInputLabels batch.gates.evaluatorInputs).Succeeds evaluator second labels
        { evaluator with
          transfer
          inputs := evaluator.inputs.drop (batch.amount .evaluatorInput) })
      (made : BatchReader.ofBatch batch labels = .ok reader)
      (slice : Machine.Slice (EvaluationState.backend suite.pad) task.program
        task.settings.timeSlice.toNat (evaluator.machine.loaded reader) executed ending after)
      (finished : after.backend.reader.finish = .ok ())
      (closes : (close ending).Succeeds
        { transfer
          machine := after
          inputs := evaluator.inputs.drop (batch.amount .evaluatorInput)
          nextBatch := evaluator.nextBatch + 1 } rest result final) :
      Round task evaluator batch executed ending after transfer (first ++ (second ++ rest)) result
        final

theorem round_of_sliceContinuous (receives : evaluator.transfer.Receives)
    (succeeds : (sliceContinuous task).Succeeds evaluator exchanges result final) :
    ∃ batch executed ending after transfer,
      Round task evaluator batch executed ending after transfer exchanges result final := by
  rw [sliceContinuous_eq] at succeeds
  obtain ⟨first, _, found, _, rfl, received, others⟩ := bind_succeeds.mp succeeds
  cases found with
  | none => exact (throw_succeeds.mp others).elim
  | some batch =>
      obtain ⟨_, _, rfl⟩ := BatchStream.tells_of_receive_some received
      obtain ⟨_, _, _, _, rfl, got, checked⟩ := bind_succeeds.mp others
      obtain ⟨rfl, rfl, rfl⟩ := get_succeeds.mp got
      obtain ⟨_, _, _, _, rfl, allows, labelling⟩ := bind_succeeds.mp checked
      obtain ⟨_, rfl, rfl⟩ := allowed_succeeds.mp allows
      obtain ⟨second, _, labels, middle, rfl, labelled, loading⟩ := bind_succeeds.mp labelling
      obtain ⟨transfer, _, _, rfl, _⟩ := of_receiveInputLabels receives labelled
      obtain ⟨_, _, _, _, rfl, loaded, executing⟩ := bind_succeeds.mp loading
      obtain ⟨position, rfl, reader, made, rfl⟩ := of_load loaded
      obtain ⟨_, _, ending, _, rfl, runs, finishing⟩ := bind_succeeds.mp executing
      obtain ⟨after, execution, rfl, rfl⟩ := of_executeSlice runs
      obtain ⟨_, rest, _, _, rfl, finishes, closing⟩ := bind_succeeds.mp finishing
      obtain ⟨finished, rfl, rfl⟩ := of_finishBatch finishes
      obtain ⟨executed, slice⟩ := Machine.execute_eq_ok_iff.mp execution
      simp only [List.nil_append]
      exact ⟨batch, executed, ending, after, transfer,
        .intro received position labelled made slice finished closing⟩

/-- A round in continuous mode executes a slice on a batch that is right for it. -/
theorem Placed.of_sliceContinuous (placed : evaluator.Placed number gates)
    (receives : evaluator.transfer.Receives)
    (succeeds : (sliceContinuous task).Succeeds evaluator exchanges result final) :
    ∃ batch executed, Executes task (.evaluating evaluator, exchanges) batch executed ∧
      AcceptedAt number gates batch executed ∧
      batch.amount .evaluatorInput ≤ evaluator.inputs.length ∧
      match result with
      | .again _ => Tells exchanges batch.entries ∧ final.transfer.Receives ∧
          final.inputs = evaluator.inputs.drop (batch.amount .evaluatorInput) ∧
          final.Placed (number + 1) (gates + batch.amount .gate)
      | .finish _ => Tells exchanges (batch.entries ++ [.done]) := by
  obtain ⟨batch, executed, ending, after, transfer, round⟩ :=
    round_of_sliceContinuous receives succeeds
  obtain ⟨received, position, labelled, made, slice, finished, closes⟩ := round
  obtain ⟨told, _, _⟩ := BatchStream.tells_of_receive_some received
  obtain ⟨_, still, enough, same, nothing⟩ := of_receiveInputLabels receives labelled
  obtain rfl : transfer = _ := congrArg Evaluator.transfer same
  obtain ⟨accepted, lowered, count⟩ := placed.accepts position made slice finished
  have next : evaluator.nextBatch + 1 = UInt64.ofNat (number + 1) := by
    rw [UInt64.ofNat_add, ← placed.number]
    rfl
  obtain ⟨closed, _, quiet⟩ := of_close closes
  have tells := told.append (nothing.append quiet)
  refine ⟨batch, executed, .evaluating received labelled made slice, accepted, enough, ?_⟩
  cases ending with
  | restart =>
      cases closed
      rw [if_neg nofun, List.append_nil, List.append_nil] at tells
      exact ⟨tells, still, rfl, lowered, next, count⟩
  | time =>
      cases closed
      rw [if_neg nofun, List.append_nil, List.append_nil] at tells
      exact ⟨tells, still, rfl, lowered, next, count⟩
  | done =>
      cases closed
      exact tells

/-- A round in which stored batches are replayed executes a slice on the oldest batch, which is
right for it. The last round leaves no batch. -/
theorem Placed.of_replaySlice {stored : StoredRun} {batches : List BatchPair}
    {stock : List (List Label)} {result : Option Outputs} {final : Buffering suite}
    (placed : evaluator.Placed number gates) (holds : stored.Holds batches stock)
    (succeeds : (replaySlice task).Succeeds (evaluator, stored) exchanges result final) :
    ∃ batch rest executed stockLeft, batches = batch :: rest ∧
      Executes task (.replaying (evaluator, stored), exchanges) batch executed ∧
      AcceptedAt number gates batch executed ∧ Tells exchanges [] ∧
      (result.isNone → final.2.Holds rest stockLeft ∧
        final.1.Placed (number + 1) (gates + batch.amount .gate)) ∧
      (result.isSome → rest = []) := by
  obtain ⟨_, _, _, _, rfl, got, others⟩ := bind_succeeds.mp succeeds
  obtain ⟨rfl, rfl, rfl⟩ := get_succeeds.mp got
  simp only at others
  cases popped : stored.pop evaluator.nextBatch with
  | mk outcome left =>
      rw [popped] at others
      obtain ⟨_, _, _, _, rfl, moved, loading⟩ := bind_succeeds.mp others
      obtain ⟨rfl, rfl⟩ := set_succeeds.mp moved
      cases outcome with
      | error fault => exact (throw_succeeds.mp loading).elim
      | ok found =>
          obtain ⟨batch, labels⟩ := found
          obtain ⟨rest, stockLeft, rfl, held⟩ := holds.of_pop popped
          obtain ⟨_, _, _, _, rfl, loads, executing⟩ := bind_succeeds.mp loading
          obtain ⟨_, loaded, rfl⟩ := zoom_succeeds.mp loads
          obtain ⟨position, rfl, reader, made, rfl⟩ := of_load loaded
          obtain ⟨_, _, ending, _, rfl, runs, closing⟩ := bind_succeeds.mp executing
          obtain ⟨_, ran, rfl⟩ := zoom_succeeds.mp runs
          obtain ⟨after, execution, rfl, rfl⟩ := of_executeSlice ran
          obtain ⟨executed, slice⟩ := Machine.execute_eq_ok_iff.mp execution
          have executes {rest : List Exchange} : Executes task
              (.replaying (evaluator, stored), rest) batch executed :=
            .replaying popped made slice
          have accepts (finished : after.backend.reader.finish = .ok ()) :=
            placed.accepts position made slice finished
          have next : evaluator.nextBatch + 1 = UInt64.ofNat (number + 1) := by
            rw [UInt64.ofNat_add, ← placed.number]
            rfl
          cases ending with
          | restart => exact (throw_succeeds.mp closing).elim
          | time =>
              obtain ⟨_, _, _, _, rfl, finishes, last⟩ := bind_succeeds.mp closing
              obtain ⟨_, finishing, rfl⟩ := zoom_succeeds.mp finishes
              obtain ⟨finished, rfl, rfl⟩ := of_finishBatch finishing
              obtain ⟨rfl, rfl, rfl⟩ := pure_succeeds.mp last
              obtain ⟨accepted, lowered, count⟩ := accepts finished
              exact ⟨batch, rest, executed, stockLeft, rfl, executes, accepted, .nil,
                fun _ => ⟨held, lowered, next, count⟩, fun some => by cases some⟩
          | done =>
              obtain ⟨_, _, _, _, rfl, finishes, counting⟩ := bind_succeeds.mp closing
              obtain ⟨_, finishing, rfl⟩ := zoom_succeeds.mp finishes
              obtain ⟨finished, rfl, rfl⟩ := of_finishBatch finishing
              obtain ⟨accepted, _, _⟩ := accepts finished
              obtain ⟨_, _, _, _, rfl, looked, checking⟩ := bind_succeeds.mp counting
              obtain ⟨rfl, rfl, rfl⟩ := get_succeeds.mp looked
              rw [held.remaining] at checking
              by_cases trailing : 0 < rest.length
              · simp only [trailing, if_true] at checking
                obtain ⟨_, _, _, _, _, thrown, _⟩ := bind_succeeds.mp checking
                exact (throw_succeeds.mp thrown).elim
              · simp only [trailing, if_false] at checking
                obtain ⟨_, _, _, _, rfl, concludes, last⟩ := bind_succeeds.mp checking
                obtain ⟨_, concluded, rfl⟩ := zoom_succeeds.mp concludes
                obtain ⟨rfl, rfl, rfl⟩ := of_conclude concluded
                obtain ⟨rfl, rfl, rfl⟩ := pure_succeeds.mp last
                refine ⟨batch, rest, executed, stockLeft, rfl, executes, accepted,
                  .out _, fun none => (by cases none), fun _ => ?_⟩
                exact List.eq_nil_of_length_eq_zero (Nat.eq_zero_of_not_pos trailing)

/-- While labels are stored, the evaluator stays where it is and is told nothing else, and it has
had as many inputs as it was asked for. -/
theorem of_storeInputLabels {counts : List UInt64} {stored : StoredRun} {batches : List BatchPair}
    {stock : List (List Label)} {final : Buffering suite} (holds : stored.Holds batches stock)
    (receives : evaluator.transfer.Receives)
    (succeeds : (storeInputLabels counts).Succeeds (evaluator, stored) exchanges () final) :
    Tells exchanges [] ∧ (∃ stockAfter, final.2.Holds batches stockAfter) ∧
      (counts.map UInt64.toNat).sum ≤ evaluator.inputs.length ∧
      ∀ number gates, evaluator.Placed number gates → final.1.Placed number gates := by
  induction counts generalizing evaluator stored stock exchanges with
  | nil =>
      obtain ⟨rfl, _, rfl⟩ := pure_succeeds.mp succeeds
      exact ⟨.nil, ⟨stock, holds⟩, Nat.zero_le _, fun _ _ placed => placed⟩
  | cons count counts inductionHypothesis =>
      obtain ⟨_, _, labels, _, rfl, received, others⟩ := bind_succeeds.mp succeeds
      obtain ⟨_, part, rfl⟩ := zoom_succeeds.mp received
      obtain ⟨transfer, still, enough, rfl, nothing⟩ := of_receiveInputLabels receives part
      obtain ⟨_, _, _, _, rfl, pushed, rest⟩ := bind_succeeds.mp others
      obtain ⟨rfl, rfl⟩ := modify_succeeds.mp pushed
      have held : (stored.pushInputLabels labels).Holds batches (stock ++ [labels]) :=
        ⟨holds.gates, holds.masks, congrArg (· ++ [labels]) holds.labels⟩
      obtain ⟨quiet, kept, few, moves⟩ := inductionHypothesis held still rest
      refine ⟨nothing.append quiet, kept, ?_, fun _ _ placed => moves _ _ ⟨placed.lowered,
        placed.number, placed.gates⟩⟩
      rw [List.length_drop] at few
      rw [List.map_cons, List.sum_cons]
      omega

/-- A round in which batches are stored stores the next one, or is the last. -/
theorem of_storeBatch {isLast : Bool} {stored : StoredRun} {batches : List BatchPair}
    {stock : List (List Label)} {final : Buffering suite} (holds : stored.Holds batches stock)
    (receives : evaluator.transfer.Receives)
    (succeeds : storeBatch.Succeeds (evaluator, stored) exchanges isLast final) :
    if isLast then
      Tells exchanges [.done] ∧ (∃ stockAfter, final.2.Holds batches stockAfter) ∧
        (stored.inputCounts.map UInt64.toNat).sum ≤ evaluator.inputs.length ∧
        ∀ number gates, evaluator.Placed number gates → final.1.Placed number gates
    else
      ∃ batch, Tells exchanges batch.entries ∧ final.1 = evaluator ∧
        final.2.Holds (batches ++ [batch]) stock ∧
        final.2.inputCounts = stored.inputCounts ++ batch.inputCount := by
  obtain ⟨_, _, found, _, rfl, received, others⟩ := bind_succeeds.mp succeeds
  cases found with
  | none =>
      obtain ⟨told, rfl⟩ := BatchStream.tells_of_receive_none received
      obtain ⟨_, _, counts, _, rfl, taken, storing⟩ := bind_succeeds.mp others
      obtain ⟨rfl, rfl, rfl⟩ := modifyGet_succeeds.mp taken
      obtain ⟨_, _, _, _, rfl, labels, last⟩ := bind_succeeds.mp storing
      obtain ⟨rfl, rfl, rfl⟩ := pure_succeeds.mp last
      have held : (stored.takeInputCounts.2).Holds batches stock :=
        ⟨holds.gates, holds.masks, holds.labels⟩
      obtain ⟨quiet, kept, few, moves⟩ := of_storeInputLabels held receives labels
      exact ⟨told.append (quiet.append .nil), kept, few, moves⟩
  | some batch =>
      obtain ⟨told, countable, rfl⟩ := BatchStream.tells_of_receive_some received
      obtain ⟨_, _, _, _, rfl, got, pushing⟩ := bind_succeeds.mp others
      obtain ⟨rfl, rfl, rfl⟩ := get_succeeds.mp got
      simp only at pushing
      cases pushed : stored.push batch with
      | mk outcome after =>
          rw [pushed] at pushing
          obtain ⟨_, _, _, _, rfl, moved, last⟩ := bind_succeeds.mp pushing
          obtain ⟨rfl, rfl⟩ := set_succeeds.mp moved
          cases outcome with
          | error fault => exact (throw_succeeds.mp last).elim
          | ok =>
              obtain ⟨rfl, rfl, rfl⟩ := pure_succeeds.mp last
              obtain ⟨held, counted⟩ := holds.of_push countable pushed
              refine ⟨batch, ?_, rfl, held, counted⟩
              simpa using told

/-- The rounds in which slices are executed execute these instructions on these batches. -/
def ExecutesAll (task : Task) (visited : List (Phase suite × List Exchange))
    (slices : List (BatchPair × List Instruction)) : Prop :=
  List.Forall₂ (fun visit slice => Executes task visit slice.1 slice.2)
    (visited.filter (·.1.isExecuting)) slices

variable {usable : String → Bool} {visited : List (Phase suite × List Exchange)}
  {outputs : Outputs}

/-- Stored batches that have been replayed to the end are right for the slices. -/
theorem Placed.of_replaying {stored : StoredRun} {batches : List BatchPair}
    {stock : List (List Label)} (placed : evaluator.Placed number gates)
    (holds : stored.Holds batches stock)
    (visits : (rounds usable task).Visits (.replaying (evaluator, stored)) visited (.ok outputs)) :
    ∃ slices, ExecutesAll task visited slices ∧ AcceptedFrom number gates slices ∧
      slices.map Prod.fst = batches ∧ Tells (visited.flatMap Prod.snd) [] := by
  generalize begins : Phase.replaying (evaluator, stored) = phase at visits
  generalize ends : Except.ok outputs = value at visits
  induction visits generalizing evaluator stored batches stock number gates with
  | finish follows =>
      subst begins ends
      obtain ⟨final, succeeds⟩ := toRound_follows_finish.mp follows
      obtain ⟨_, _, result, _, rfl, replays, last⟩ := bind_succeeds.mp succeeds
      obtain ⟨batch, rest, executed, stockLeft, rfl, executes, accepted, quiet, _, finished⟩ :=
        placed.of_replaySlice holds replays
      cases result with
      | none =>
          obtain ⟨_, same, _⟩ := pure_succeeds.mp last
          cases same
      | some found =>
          obtain ⟨rfl, _, _⟩ := pure_succeeds.mp last
          obtain rfl := finished rfl
          rw [List.append_nil]
          refine ⟨[(batch, executed)], .cons executes .nil, .cons accepted .nil, rfl, ?_⟩
          exact quiet.append .nil
  | again follows others inductionHypothesis =>
      subst begins ends
      obtain ⟨_, final, succeeds, rfl⟩ := toRound_follows_again.mp follows
      obtain ⟨_, _, result, _, rfl, replays, last⟩ := bind_succeeds.mp succeeds
      obtain ⟨batch, rest, executed, stockLeft, rfl, executes, accepted, quiet, continues, _⟩ :=
        placed.of_replaySlice holds replays
      cases result with
      | some found =>
          obtain ⟨_, same, _⟩ := pure_succeeds.mp last
          cases same
      | none =>
          obtain ⟨rfl, _, rfl⟩ := pure_succeeds.mp last
          obtain ⟨held, placedAfter⟩ := continues rfl
          obtain ⟨slices, executesAll, acceptedFrom, same, others⟩ :=
            inductionHypothesis placedAfter held rfl rfl
          rw [List.append_nil]
          refine ⟨(batch, executed) :: slices, .cons executes executesAll,
            .cons accepted acceptedFrom, congrArg (batch :: ·) same, ?_⟩
          exact quiet.append others

/-- Whatever is sent for the labels, a run in continuous mode has been told the right batches. -/
theorem Placed.of_evaluating (placed : evaluator.Placed number gates)
    (receives : evaluator.transfer.Receives)
    (visits : (rounds usable task).Visits (.evaluating evaluator) visited (.ok outputs)) :
    ∃ slices, ExecutesAll task visited slices ∧ AcceptedFrom number gates slices ∧
      Tells (visited.flatMap Prod.snd)
        (slices.flatMap (fun slice => slice.1.entries) ++ [.done]) ∧
      (slices.map fun slice => slice.1.amount .evaluatorInput).sum ≤ evaluator.inputs.length := by
  generalize begins : Phase.evaluating evaluator = phase at visits
  generalize ends : Except.ok outputs = value at visits
  induction visits generalizing evaluator number gates with
  | finish follows =>
      subst begins ends
      obtain ⟨final, succeeds⟩ := toRound_follows_finish.mp follows
      obtain ⟨batch, executed, executes, accepted, enough, told⟩ :=
        placed.of_sliceContinuous receives succeeds
      refine ⟨[(batch, executed)], .cons executes .nil, .cons accepted .nil, ?_, enough⟩
      rw [List.flatMap_singleton, List.flatMap_singleton]
      exact told
  | again follows others inductionHypothesis =>
      subst begins ends
      obtain ⟨_, final, succeeds, rfl⟩ := toRound_follows_again.mp follows
      obtain ⟨batch, executed, executes, accepted, enough, told, receivesAfter, left,
        placedAfter⟩ := placed.of_sliceContinuous receives succeeds
      obtain ⟨slices, executesAll, acceptedFrom, tells, few⟩ :=
        inductionHypothesis placedAfter receivesAfter rfl rfl
      refine ⟨(batch, executed) :: slices, .cons executes executesAll,
        .cons accepted acceptedFrom, ?_, ?_⟩
      · rw [List.flatMap_cons, List.flatMap_cons, List.append_assoc]
        exact told.append tells
      · rw [left, List.length_drop] at few
        have total := Nat.add_le_add_left few (batch.amount .evaluatorInput)
        rw [Nat.add_sub_cancel' enough] at total
        exact total

/-- The counts of the inputs are those of the batches. -/
theorem sum_inputCount (batches : List BatchPair) :
    ((batches.flatMap BatchPair.inputCount).map UInt64.toNat).sum =
      (batches.map fun batch => batch.amount .evaluatorInput).sum := by
  induction batches with
  | nil => rfl
  | cons batch rest inductionHypothesis =>
      have head : (batch.inputCount.map UInt64.toNat).sum = batch.amount .evaluatorInput := by
        unfold BatchPair.inputCount
        split
        · simp [BatchPair.amount]
        · next none =>
            have zero : batch.gates.evaluatorInputs.toNat = 0 := by
              rw [UInt64.lt_iff_toNat_lt] at none
              simpa using none
            simp [BatchPair.amount, zero]
      rw [List.flatMap_cons, List.map_append, List.sum_append, head, inductionHypothesis,
        List.map_cons, List.sum_cons]

/-- A run in buffered mode has been told the batches that it has replayed. -/
theorem Placed.of_storing {stored : StoredRun} {batches : List BatchPair}
    {stock : List (List Label)} (placed : evaluator.Placed number gates)
    (receives : evaluator.transfer.Receives) (holds : stored.Holds batches stock)
    (counts : stored.inputCounts = batches.flatMap BatchPair.inputCount)
    (visits : (rounds usable task).Visits (.storing (evaluator, stored)) visited (.ok outputs)) :
    ∃ more slices, ExecutesAll task visited slices ∧ AcceptedFrom number gates slices ∧
      slices.map Prod.fst = batches ++ more ∧
      Tells (visited.flatMap Prod.snd) (more.flatMap BatchPair.entries ++ [.done]) ∧
      (slices.map fun slice => slice.1.amount .evaluatorInput).sum ≤ evaluator.inputs.length := by
  generalize begins : Phase.storing (evaluator, stored) = phase at visits
  generalize ends : Except.ok outputs = value at visits
  induction visits generalizing stored batches with
  | finish follows =>
      subst begins ends
      obtain ⟨final, succeeds⟩ := toRound_follows_finish.mp follows
      obtain ⟨_, _, isLast, _, rfl, _, last⟩ := bind_succeeds.mp succeeds
      obtain ⟨_, same, _⟩ := pure_succeeds.mp last
      cases same
  | again follows others inductionHypothesis =>
      subst begins ends
      obtain ⟨isLast, final, succeeds, rfl⟩ := toRound_follows_again.mp follows
      obtain ⟨_, _, found, _, rfl, stores, last⟩ := bind_succeeds.mp succeeds
      obtain ⟨rfl, same, rfl⟩ := pure_succeeds.mp last
      injection same with same
      subst same
      have round := of_storeBatch holds receives stores
      rw [List.append_nil]
      cases isLast with
      | true =>
          obtain ⟨told, ⟨stockAfter, held⟩, few, moves⟩ := round
          obtain ⟨slices, executesAll, acceptedFrom, same, quiet⟩ :=
            (moves _ _ placed).of_replaying held others
          refine ⟨[], slices, executesAll, acceptedFrom, ?_, ?_, ?_⟩
          · rw [same, List.append_nil]
          · exact told.append quiet
          · rw [counts, sum_inputCount, ← same, List.map_map] at few
            exact few
      | false =>
          obtain ⟨batch, told, rfl, held, counted⟩ := round
          have all : final.2.inputCounts = (batches ++ [batch]).flatMap BatchPair.inputCount := by
            rw [counted, counts, List.flatMap_append, List.flatMap_singleton]
          obtain ⟨more, slices, executesAll, acceptedFrom, same, tells, few⟩ :=
            inductionHypothesis held all rfl rfl
          refine ⟨batch :: more, slices, executesAll, acceptedFrom, ?_, ?_, few⟩
          · rw [same, List.append_assoc]
            rfl
          · rw [List.flatMap_cons, List.flatMap_cons, List.append_assoc]
            exact told.append tells

theorem holds_of_openStore {start rest : LabelTransfer suite × suite.Generator} {stored : StoredRun}
    (succeeds : (openStore usable task).Succeeds start exchanges stored rest) :
    stored.Holds [] [] ∧ stored.inputCounts = [] ∧ exchanges = [] := by
  unfold openStore at succeeds
  split at succeeds
  · next storage _ =>
      obtain ⟨rfl, rfl, _⟩ := pure_succeeds.mp succeeds
      exact ⟨.empty storage, rfl, rfl⟩
  · exact (throw_succeeds.mp succeeds).elim

/-- After the setup, the rounds of an evaluator that ends with outputs are told a stream of
batches that are right for the slices executed in them. -/
theorem accepts_of_entering {generator : suite.Generator}
    (visits : (rounds usable task).Visits (.entering generator) visited (.ok outputs)) :
    ∃ handshake points stream slices,
      Exchange.incoming (visited.flatMap Prod.snd) = handshake :: points :: stream ∧
      ExecutesAll task visited slices ∧ AcceptedFrom 0 0 slices ∧
      Transcript.Carries stream (slices.flatMap (fun slice => slice.1.entries) ++ [.done]) ∧
      (slices.map fun slice => slice.1.amount .evaluatorInput).sum ≤ task.inputs.length := by
  cases visits with
  | finish follows =>
      obtain ⟨final, succeeds⟩ := toRound_follows_finish.mp follows
      obtain ⟨_, _, evaluator, _, rfl, _, last⟩ := bind_succeeds.mp succeeds
      cases mode : task.typed with
      | continuous =>
          rw [mode] at last
          obtain ⟨_, same, _⟩ := pure_succeeds.mp last
          cases same
      | buffered =>
          rw [mode] at last
          obtain ⟨_, _, _, _, _, _, named⟩ := bind_succeeds.mp last
          obtain ⟨_, same, _⟩ := pure_succeeds.mp named
          cases same
  | again follows others =>
      obtain ⟨phase, final, succeeds, rfl⟩ := toRound_follows_again.mp follows
      obtain ⟨first, _, evaluator, _, rfl, enters, last⟩ := bind_succeeds.mp succeeds
      obtain ⟨receives, begins, handshake, points, setup⟩ := entered_of_enter enters
      have placed : evaluator.Placed 0 0 := by
        rw [begins]
        exact ⟨rfl, rfl, rfl⟩
      have inputs : evaluator.inputs = task.inputs := by
        rw [begins]
        rfl
      cases mode : task.typed with
      | continuous =>
          rw [mode] at last
          obtain ⟨rfl, same, _⟩ := pure_succeeds.mp last
          cases same
          obtain ⟨slices, executes, accepted, tells, few⟩ := placed.of_evaluating receives others
          refine ⟨handshake, points, _, slices, ?_, executes, accepted, tells, inputs ▸ few⟩
          rw [List.flatMap_cons, List.append_nil, Exchange.incoming_append, setup]
          rfl
      | buffered =>
          rw [mode] at last
          obtain ⟨_, _, stored, _, rfl, opens, named⟩ := bind_succeeds.mp last
          obtain ⟨rfl, same, _⟩ := pure_succeeds.mp named
          cases same
          obtain ⟨holds, counts, rfl⟩ := holds_of_openStore opens
          obtain ⟨batches, slices, executes, accepted, same, tells, few⟩ :=
            placed.of_storing receives holds counts others
          have entries : batches.flatMap BatchPair.entries =
              slices.flatMap fun slice => slice.1.entries := by
            rw [← List.nil_append batches, ← same, List.flatMap_map]
          rw [entries] at tells
          refine ⟨handshake, points, _, slices, ?_, executes, accepted, tells, inputs ▸ few⟩
          rw [List.flatMap_cons, List.append_nil, List.append_nil, Exchange.incoming_append, setup]
          rfl

/-- An evaluator that ends with outputs, in either mode and whatever the other party has sent, has
received exactly the batches of the slices that it has executed, and then the end of the stream.
Each batch has the number of its slice, begins at the gate after all gates before it, and holds
what the executed instructions need; and there were inputs for all of them. -/
theorem accepts_matching_stream {generator : suite.Generator} {events : List (Event (Phase suite))}
    (follows : (Activity.running (rounds usable task (.entering generator))).Follows
      (rounds usable task) events (.ended (.ok outputs))) :
    ∃ visited slices, (rounds usable task).Visits (.entering generator) visited (.ok outputs) ∧
      events = Event.ofVisited visited ∧ ExecutesAll task visited slices ∧
      (Transcript.ofGarbler (Event.received events)).filter Entry.inStream =
        slices.flatMap (fun slice => slice.1.entries) ++ [.done] ∧
      (∀ (index : Nat) (batch : BatchPair) (executed : List Instruction),
        slices[index]? = some (batch, executed) →
          AcceptedAt index
            ((slices.take index).map fun slice => slice.1.amount .gate).sum batch executed) ∧
      (slices.map fun slice => slice.1.amount .evaluatorInput).sum ≤ task.inputs.length := by
  obtain ⟨visited, visits, rfl⟩ := follows.visits
  obtain ⟨handshake, points, stream, slices, messages, executes, accepted, carries, few⟩ :=
    accepts_of_entering visits
  refine ⟨visited, slices, visits, rfl, executes, ?_, ?_, few⟩
  · rw [Event.received_ofVisited, messages, ← carries.ofStream]
    rfl
  · intro index batch executed found
    have right := accepted.at_index found
    rwa [Nat.zero_add, Nat.zero_add] at right

/-- The evaluator of a conjunction accepts the stream of an honest garbler. -/
theorem accepts_conjunction :
    let parties := Run.parties Suite.exponents (fun _ => true) .ofConjunction .ofConjunction
    let begin_ := Phase.entering (ChaCha20.Generator.ofSeed [])
    ∃ events,
      (Activity.running (parties.evaluator begin_)).Follows parties.evaluator events
          (.ended (.ok { revealed := [1] })) ∧
        ∃ visited slices, parties.evaluator.Visits begin_ visited (.ok { revealed := [1] }) ∧
          events = Event.ofVisited visited ∧ ExecutesAll .ofConjunction visited slices ∧
          (Transcript.ofGarbler (Event.received events)).filter Entry.inStream =
            slices.flatMap (fun slice => slice.1.entries) ++ [.done] ∧
          (∀ (index : Nat) (batch : BatchPair) (executed : List Instruction),
            slices[index]? = some (batch, executed) →
              AcceptedAt index
                ((slices.take index).map fun slice => slice.1.amount .gate).sum batch executed) ∧
          (slices.map fun slice => slice.1.amount .evaluatorInput).sum ≤
            Task.ofConjunction.inputs.length := by
  intro parties begin_
  have masks : (Program.conjunction.instructions.toList.map Instruction.width).sum <
      UInt64.size := by decide
  have values : Reference.ofConjunction.revealed.length < UInt64.size := by decide
  obtain ⟨_, _, _, events, _, follows, _⟩ :=
    Continuous.ofConjunction.joint_of_finishes Suite.exponents_lawful (.ofSeed []) (.ofSeed [])
      Reference.finishes_conjunction masks values
  exact ⟨events, follows, accepts_matching_stream follows⟩

end Evaluator

end Garbling
