import Mathlib
import Garbling.Proofs.Acceptance
import Garbling.Proofs.Lockstep
import Garbling.Proofs.ModesAgree

/-!
# What the evaluator answers

In continuous mode the evaluator sends, after its setup, the columns that ask for the labels of its
inputs and the values that it opens. Two evaluators with the same inputs that open the same values in
the end are in lockstep from slice to slice, whatever batches and labels they are sent, so they send
the same messages.
-/

namespace Garbling

open Session

variable {suite : Suite}

/-- What came of an exchange, without the message if it was one to send. -/
def Exchange.outcome : Exchange → Except SendFailure Unit ⊕ Except ReceiveFailure Bytes
  | .sent _ outcome => .inl outcome
  | .received outcome => .inr outcome

/-- What a process exchanges depends on what came of its exchanges only. -/
theorem Process.Reaches.unique {α : Type} {process goal other : Process α}
    {first second : List Exchange} (one : process.Reaches first goal)
    (two : process.Reaches second other)
    (outcomes : first.map Exchange.outcome = second.map Exchange.outcome) :
    first = second ∧ goal = other := by
  induction one generalizing second with
  | refl =>
      obtain rfl : second = [] := List.map_eq_nil_iff.mp outcomes.symm
      exact ⟨rfl, two.eq_of_nil⟩
  | send reaches inductionHypothesis =>
      cases two with
      | refl => cases outcomes
      | send others =>
          obtain ⟨same, rest⟩ := List.cons.inj outcomes
          cases same
          obtain ⟨rfl, rfl⟩ := inductionHypothesis others rest
          exact ⟨rfl, rfl⟩
  | receive reaches inductionHypothesis =>
      cases two with
      | refl => cases outcomes
      | receive others =>
          obtain ⟨same, rest⟩ := List.cons.inj outcomes
          cases same
          obtain ⟨rfl, rfl⟩ := inductionHypothesis others rest
          exact ⟨rfl, rfl⟩

/-- A receiver asks for labels in the same way whatever labels it is sent. -/
theorem LabelTransfer.asks_alike {transfer final otherFinal : LabelTransfer suite}
    (receives : transfer.Receives) {choices : List Bool} {labels found : List Label}
    {exchanges others : List Exchange}
    (one : (receive choices).Succeeds transfer exchanges labels final)
    (two : (receive choices).Succeeds transfer others found otherFinal) :
    Exchange.outgoing exchanges = Exchange.outgoing others ∧ final = otherFinal := by
  obtain ⟨columns, receiver⟩ := receives
  obtain ⟨_, _, _, rfl, _, _, rfl⟩ := exchanges_of_receive receiver one
  obtain ⟨_, _, _, rfl, _, _, rfl⟩ := exchanges_of_receive receiver two
  exact ⟨rfl, rfl⟩

namespace Evaluator

variable {task other : Task} {first second firstFinal secondFinal evaluator final : Evaluator suite}
  {exchanges others : List Exchange} {ending otherEnding : Break} {values held otherHeld : List UInt64}

/-- The evaluators have the same inputs left and ask for labels in the same way, and their machines
are abreast. -/
structure Abreast (first second : Evaluator suite) : Prop where
  machine : first.machine.Abreast second.machine
  lowered : first.machine.processor.taint = {}
  receives : first.transfer.Receives
  transfer : first.transfer = second.transfer
  inputs : first.inputs = second.inputs

/-- Evaluators with the same inputs ask for the same labels. -/
theorem receiveInputLabels_alike {count : UInt64} {labels found : List Label}
    (receives : first.transfer.Receives) (transfer : first.transfer = second.transfer)
    (inputs : first.inputs = second.inputs)
    (one : (receiveInputLabels count).Succeeds first exchanges labels firstFinal)
    (two : (receiveInputLabels count).Succeeds second others found secondFinal) :
    Exchange.outgoing exchanges = Exchange.outgoing others ∧
      firstFinal.transfer = secondFinal.transfer := by
  unfold receiveInputLabels at one two
  by_cases none : count = 0
  · simp only [none, if_true] at one two
    obtain ⟨rfl, rfl, rfl⟩ := pure_succeeds.mp one
    obtain ⟨rfl, rfl, rfl⟩ := pure_succeeds.mp two
    exact ⟨rfl, transfer⟩
  · simp only [none, if_false] at one two
    obtain ⟨_, _, _, _, rfl, taken, received⟩ := bind_succeeds.mp one
    obtain ⟨_, rfl, rfl, rfl⟩ := of_takeChoices taken
    obtain ⟨_, part, rfl⟩ := zoom_succeeds.mp received
    obtain ⟨_, _, _, _, rfl, otherTaken, otherReceived⟩ := bind_succeeds.mp two
    obtain ⟨_, rfl, rfl, rfl⟩ := of_takeChoices otherTaken
    obtain ⟨_, otherPart, rfl⟩ := zoom_succeeds.mp otherReceived
    rw [← transfer, ← inputs] at otherPart
    exact LabelTransfer.asks_alike receives part otherPart

/-- Evaluators that have the same log at the end of a slice answer the same, and stay abreast. -/
theorem Abreast.closed (abreast : first.Abreast second)
    (log : first.machine.processor.log = second.machine.processor.log) (ending : Break) :
    first.answers ending = second.answers ending ∧
      (first.closed ending).2.Abreast (second.closed ending).2 := by
  have rewound := Processor.Related.rewind abreast.machine
  cases ending with
  | time => exact ⟨rfl, abreast⟩
  | restart =>
      refine ⟨by simp only [answers, log], { abreast with machine := ?_ }⟩
      simp only [Evaluator.closed, log]
      exact { rewound with log := .opening _ }
  | done =>
      refine ⟨by simp only [answers, log], { abreast with machine := ?_ }⟩
      simp only [Evaluator.closed, log]
      exact { abreast.machine with log := .opening _ }

section

variable {batch otherBatch : BatchPair} {executed otherExecuted : List Instruction}
  {after otherAfter : Machine Label EvaluationState} {transfer otherTransfer : LabelTransfer suite}
  {result otherResult : Next Unit Outputs}

/-- The values that the evaluator knows after its slice are those that it knows after the round, and
those of its outputs if it finishes. -/
theorem Round.holds
    (round : Round task evaluator batch executed ending after transfer exchanges result final)
    (holds : evaluator.machine.processor.log.Holds values) :
    ∃ more, after.processor.log.Holds (values ++ more) ∧
      final.machine.processor.log.Holds (values ++ more) ∧
      ∀ outputs, result = .finish outputs → outputs.revealed = values ++ more := by
  obtain ⟨_, _, _, _, slice, _, closes⟩ := round
  obtain ⟨more, held⟩ := slice.holds holds
  obtain ⟨closed, _, _⟩ := of_close closes
  refine ⟨more, held, ?_⟩
  cases ending with
  | restart | time =>
      cases closed
      exact ⟨held, nofun⟩
  | done =>
      cases closed
      refine ⟨held, ?_⟩
      rintro _ ⟨⟩
      exact held.revealed_opening

/-- A round finishes exactly if the program is over. -/
theorem Round.finishes_iff
    (round : Round task evaluator batch executed ending after transfer exchanges result final) :
    (∃ outputs, result = .finish outputs) ↔ ending = .done := by
  obtain ⟨_, _, _, _, _, _, closes⟩ := round
  obtain ⟨closed, _, _⟩ := of_close closes
  cases ending <;> cases closed <;> simp

theorem Round.receives (receives : evaluator.transfer.Receives)
    (round : Round task evaluator batch executed ending after transfer exchanges result final) :
    transfer.Receives ∧ final.transfer = transfer := by
  obtain ⟨_, _, labelled, _, _, _, closes⟩ := round
  obtain ⟨_, still, _, same, _⟩ := of_receiveInputLabels receives labelled
  obtain rfl : transfer = _ := congrArg Evaluator.transfer same
  obtain ⟨closed, _, _⟩ := of_close closes
  refine ⟨still, ?_⟩
  cases ending <;> cases closed <;> rfl

/-- Rounds of evaluators that are abreast end in the same way. If what both know then is the
beginning of the same values, they have sent the same and are abreast again. -/
theorem Abreast.round (abreast : first.Abreast second) (program : task.program = other.program)
    (timeSlice : task.settings.timeSlice = other.settings.timeSlice) {whole : List UInt64}
    (one : Round task first batch executed ending after transfer exchanges result firstFinal)
    (two : Round other second otherBatch otherExecuted otherEnding otherAfter otherTransfer others
      otherResult secondFinal)
    (holds : after.processor.log.Holds held) (otherHolds : otherAfter.processor.log.Holds otherHeld)
    (begins : held <+: whole) (otherBegins : otherHeld <+: whole) :
    ending = otherEnding ∧ Exchange.outgoing exchanges = Exchange.outgoing others ∧
      firstFinal.Abreast secondFinal := by
  obtain ⟨receives, _⟩ := one.receives abreast.receives
  obtain ⟨received, _, labelled, made, slice, finished, closes⟩ := one
  obtain ⟨otherReceived, _, otherLabelled, otherMade, otherSlice, otherFinished, otherCloses⟩ := two
  rw [← program, ← timeSlice] at otherSlice
  have otherLowered : second.machine.processor.taint = {} := by
    rw [← Processor.Related.taint abreast.machine]
    exact abreast.lowered
  obtain ⟨rfl, rfl, machines⟩ := slice.abreast otherSlice abreast.machine
  -- the same instructions have been executed, so both batches have asked for as many inputs
  obtain ⟨amount, _⟩ := amount_of_slice abreast.lowered made slice finished
  obtain ⟨otherAmount, _⟩ := amount_of_slice otherLowered otherMade otherSlice otherFinished
  have count : batch.amount .evaluatorInput = otherBatch.amount .evaluatorInput :=
    (amount .evaluatorInput).trans (otherAmount .evaluatorInput).symm
  rw [← UInt64.toNat_inj.mp count] at otherLabelled
  obtain ⟨asked, sameTransfer⟩ := receiveInputLabels_alike abreast.receives abreast.transfer
    abreast.inputs labelled otherLabelled
  have log : after.processor.log = otherAfter.processor.log :=
    holds.eq_of_beginning otherHolds begins otherBegins (Processor.Related.log machines).size
      (Processor.Related.log machines).opened
  obtain ⟨closed, answered, _⟩ := of_close closes
  obtain ⟨otherClosed, otherAnswered, _⟩ := of_close otherCloses
  have between : Abreast
      { transfer
        machine := after
        inputs := first.inputs.drop (batch.amount .evaluatorInput)
        nextBatch := first.nextBatch + 1 }
      { transfer := otherTransfer
        machine := otherAfter
        inputs := second.inputs.drop (otherBatch.amount .evaluatorInput)
        nextBatch := second.nextBatch + 1 } :=
    { machine := machines
      lowered := slice.taint abreast.lowered
      receives
      transfer := sameTransfer
      inputs := by
        simp only
        rw [count, abreast.inputs] }
  obtain ⟨same, still⟩ := between.closed log ending
  rw [← closed, ← otherClosed] at still
  refine ⟨rfl, ?_, still⟩
  obtain ⟨_, _, _, _, rfl, _⟩ := BatchStream.exchanges_of_receive_some received
  obtain ⟨_, _, _, _, rfl, _⟩ := BatchStream.exchanges_of_receive_some otherReceived
  simp only [Exchange.outgoing_append, asked, answered, otherAnswered, same]
  rfl

end

/-- The rounds of an evaluator in continuous mode until it finishes, with all that it exchanges. -/
inductive Plays (task : Task) : Evaluator suite → List Exchange → Outputs → Prop
  | finish {evaluator final : Evaluator suite} {batch : BatchPair} {executed : List Instruction}
      {ending : Break} {after : Machine Label EvaluationState} {transfer : LabelTransfer suite}
      {exchanges : List Exchange} {outputs : Outputs}
      (round : Round task evaluator batch executed ending after transfer exchanges (.finish outputs)
        final) :
      Plays task evaluator exchanges outputs
  | again {evaluator final : Evaluator suite} {batch : BatchPair} {executed : List Instruction}
      {ending : Break} {after : Machine Label EvaluationState} {transfer : LabelTransfer suite}
      {exchanges more : List Exchange} {phase : Unit} {outputs : Outputs}
      (round : Round task evaluator batch executed ending after transfer exchanges (.again phase)
        final)
      (rest : Plays task final more outputs) : Plays task evaluator (exchanges ++ more) outputs

variable {outputs otherOutputs : Outputs}

/-- What the evaluator knows at any time is the beginning of what it has revealed in the end. -/
theorem Plays.begins (plays : Plays task evaluator exchanges outputs)
    (holds : evaluator.machine.processor.log.Holds values) : values <+: outputs.revealed := by
  induction plays generalizing values with
  | finish round =>
      obtain ⟨more, _, _, revealed⟩ := round.holds holds
      rw [revealed _ rfl]
      exact List.prefix_append _ _
  | again round rest inductionHypothesis =>
      obtain ⟨more, _, held, _⟩ := round.holds holds
      exact (List.prefix_append _ _).trans (inductionHypothesis held)

/-- Evaluators that are abreast and reveal the same values in the end send the same messages. -/
theorem Plays.sends_alike (one : Plays task first exchanges outputs)
    (two : Plays other second others otherOutputs) (abreast : first.Abreast second)
    (program : task.program = other.program)
    (timeSlice : task.settings.timeSlice = other.settings.timeSlice)
    (holds : first.machine.processor.log.Holds held)
    (otherHolds : second.machine.processor.log.Holds otherHeld)
    (same : outputs.revealed = otherOutputs.revealed) :
    Exchange.outgoing exchanges = Exchange.outgoing others := by
  -- What either knows is at all times the beginning of the same values, so the rounds end in the
  -- same way: the mixed cases, in which only one of the two finishes, cannot be.
  induction one generalizing second others held otherHeld with
  | finish round =>
      obtain ⟨more, known, _, revealed⟩ := round.holds holds
      have begins : held ++ more <+: otherOutputs.revealed := by rw [← same, revealed _ rfl]
      cases two with
      | finish otherRound =>
          obtain ⟨otherMore, otherKnown, _, otherRevealed⟩ := otherRound.holds otherHolds
          have otherBegins : otherHeld ++ otherMore <+: otherOutputs.revealed := by
            rw [otherRevealed _ rfl]
          exact (abreast.round program timeSlice round otherRound known otherKnown begins
            otherBegins).2.1
      | again otherRound rest =>
          obtain ⟨otherMore, otherKnown, otherKept, _⟩ := otherRound.holds otherHolds
          obtain ⟨rfl, _⟩ := abreast.round program timeSlice round otherRound known otherKnown begins
            (rest.begins otherKept)
          obtain ⟨_, finishes⟩ := otherRound.finishes_iff.mpr (round.finishes_iff.mp ⟨_, rfl⟩)
          cases finishes
  | again round rest inductionHypothesis =>
      obtain ⟨more, known, kept, _⟩ := round.holds holds
      have begins : held ++ more <+: otherOutputs.revealed := same ▸ rest.begins kept
      cases two with
      | finish otherRound =>
          obtain ⟨otherMore, otherKnown, _, otherRevealed⟩ := otherRound.holds otherHolds
          have otherBegins : otherHeld ++ otherMore <+: otherOutputs.revealed := by
            rw [otherRevealed _ rfl]
          obtain ⟨rfl, _⟩ := abreast.round program timeSlice round otherRound known otherKnown begins
            otherBegins
          obtain ⟨_, finishes⟩ := round.finishes_iff.mpr (otherRound.finishes_iff.mp ⟨_, rfl⟩)
          cases finishes
      | again otherRound otherRest =>
          obtain ⟨otherMore, otherKnown, otherKept, _⟩ := otherRound.holds otherHolds
          obtain ⟨_, sent, still⟩ := abreast.round program timeSlice round otherRound known
            otherKnown begins (otherRest.begins otherKept)
          rw [Exchange.outgoing_append, Exchange.outgoing_append, sent,
            inductionHypothesis otherRest still kept otherKept same]

variable {usable : String → Bool} {visited : List (Phase suite × List Exchange)}

/-- The rounds that an evaluator visits in continuous mode, after its setup. -/
theorem plays_of_visits (receives : evaluator.transfer.Receives)
    (visits : (rounds usable task).Visits (.evaluating evaluator) visited (.ok outputs)) :
    Plays task evaluator (visited.flatMap Prod.snd) outputs := by
  generalize begins : Phase.evaluating evaluator = phase at visits
  generalize ends : Except.ok outputs = value at visits
  induction visits generalizing evaluator with
  | finish follows =>
      subst begins ends
      obtain ⟨final, succeeds⟩ := toRound_follows_finish.mp follows
      obtain ⟨_, _, _, _, _, round⟩ := round_of_sliceContinuous receives succeeds
      rw [List.flatMap_singleton]
      exact .finish round
  | again follows others inductionHypothesis =>
      subst begins ends
      obtain ⟨_, final, succeeds, rfl⟩ := toRound_follows_again.mp follows
      obtain ⟨_, _, _, _, _, round⟩ := round_of_sliceContinuous receives succeeds
      obtain ⟨still, same⟩ := round.receives receives
      rw [List.flatMap_cons]
      exact .again round (inductionHypothesis (same ▸ still) rfl rfl)

/-- In continuous mode the evaluator plays its rounds after it has entered. -/
theorem of_visits_entering {generator : suite.Generator} (continuous : task.typed = .continuous)
    (visits : (rounds usable task).Visits (.entering generator) visited (.ok outputs)) :
    ∃ setup evaluator rest others,
      (enter task).Succeeds ({}, generator) setup evaluator rest ∧
      Plays task evaluator others outputs ∧ visited.flatMap Prod.snd = setup ++ others := by
  generalize ended : Except.ok outputs = result at visits
  cases visits with
  | finish follows =>
      subst ended
      obtain ⟨_, succeeds⟩ := toRound_follows_finish.mp follows
      obtain ⟨_, _, _, _, rfl, _, last⟩ := bind_succeeds.mp succeeds
      rw [continuous] at last
      cases (pure_succeeds.mp last).2.1
  | again follows others =>
      subst ended
      obtain ⟨_, _, succeeds, rfl⟩ := toRound_follows_again.mp follows
      obtain ⟨setup, _, evaluator, rest, rfl, enters, last⟩ := bind_succeeds.mp succeeds
      rw [continuous] at last
      obtain ⟨rfl, same, _⟩ := pure_succeeds.mp last
      cases same
      obtain ⟨receives, _⟩ := entered_of_enter enters
      refine ⟨setup, evaluator, rest, _, enters, plays_of_visits receives others, ?_⟩
      rw [List.flatMap_cons, List.append_nil]

/-- Evaluators for the same program and inputs that hear the same in their setup say the same, and
are abreast after it. -/
theorem enter_alike {generator : suite.Generator} (resembles : task.Resembles other)
    (typed : task.typed = other.typed) {rest otherRest : LabelTransfer suite × suite.Generator}
    (one : (enter task).Succeeds ({}, generator) exchanges first rest)
    (two : (enter other).Succeeds ({}, generator) others second otherRest)
    (heard : Exchange.incoming exchanges = Exchange.incoming others) :
    Exchange.outgoing exchanges = Exchange.outgoing others ∧ first.Abreast second := by
  obtain ⟨handshake, setup, rfl, set, rfl⟩ := of_enter one
  obtain ⟨otherHandshake, otherSetup, rfl, otherSet, rfl⟩ := of_enter two
  obtain ⟨receives, opening, points, ciphertexts, rfl⟩ := LabelTransfer.receives_of_setup rfl set
  obtain ⟨_, otherOpening, otherPoints, otherCiphertexts, rfl⟩ :=
    LabelTransfer.receives_of_setup rfl otherSet
  have same : handshake = otherHandshake ∧ points = otherPoints := by
    simpa [Exchange.incoming] using heard
  obtain ⟨rfl, rfl⟩ := same
  obtain ⟨sameSetup, sameGoal⟩ := Process.Reaches.unique set otherSet rfl
  cases sameGoal
  have announces : task.announcement = other.announcement := by
    rw [Task.announcement, Task.announcement, typed, resembles.timeSlice]
  rw [sameSetup, announces]
  refine ⟨rfl, ?_⟩
  exact {
    machine := by
      simp only [entered, resembles.program]
      exact .start other.program
    lowered := rfl
    receives
    transfer := rfl
    inputs := resembles.inputs }

end Evaluator

end Garbling
