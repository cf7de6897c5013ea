import Mathlib
import Garbling.Proofs.Answering

/-!
# What the transcript tells

In continuous mode the inputs of a party have an effect on what the other one is sent only through
the values that are revealed to both. Two runs of the same program with the same randomness that
reveal the same values have the same stream of batches if the inputs of the garbler are the same,
and the same messages of the evaluator if the inputs of the evaluator are, whatever the inputs of the
other party and the values revealed to the evaluator only.
-/

namespace Garbling

variable {suite : Suite} {offset : Offset} {program : Program} {budget : Nat}

/-- After the openings the log is open as far as it goes. -/
theorem RevealLog.opened_of_applyOpenings {log after : RevealLog} {openings : List UInt64}
    (applied : log.applyOpenings openings = .ok after) : after.opened = log.values.size := by
  unfold applyOpenings at applied
  split at applied
  · cases applied
    rfl
  · cases applied

section

variable {garbler garblerAfter : Machine Label (GarblingState suite)}
  {evaluator evaluatorAfter other : Machine Label EvaluationState}
  {inputs otherInputs : List Bool} {ending : Break} {drafts otherDrafts : List (Draft × Break)}
  {revealed otherRevealed outputs otherOutputs values others : List UInt64}

theorem Portion.holds
    (portion : Portion suite offset program budget garbler evaluator inputs ending garblerAfter
      evaluatorAfter)
    (holds : evaluator.processor.log.Holds values) :
    ∃ more, evaluatorAfter.processor.log.Holds (values ++ more) := by
  obtain ⟨executed, slice⟩ := Machine.execute_eq_ok_iff.mp portion.evaluates
  exact slice.holds holds

/-- Both parties have logged as many values. -/
theorem Portion.size_eq
    (portion : Portion suite offset program budget garbler evaluator inputs ending garblerAfter
      evaluatorAfter) :
    evaluatorAfter.processor.log.values.size = garblerAfter.processor.log.values.size :=
  RevealLog.opened_of_applyOpenings portion.opens

/-- What the evaluator knows at any time is the beginning of what is revealed in the end. -/
theorem Duet.begins
    (duet : Duet suite offset program budget garbler evaluator inputs drafts revealed outputs)
    (holds : evaluator.processor.log.Holds values) : values <+: revealed := by
  induction duet generalizing values with
  | done portion few =>
      obtain ⟨more, held⟩ := portion.holds holds
      rw [held.revealed_opening]
      exact List.prefix_append _ _
  | time portion rest inductionHypothesis =>
      obtain ⟨more, held⟩ := portion.holds holds
      exact (List.prefix_append _ _).trans (inductionHypothesis held)
  | restart portion few rest inductionHypothesis =>
      obtain ⟨more, held⟩ := portion.holds holds
      exact (List.prefix_append _ _).trans (inductionHypothesis held)

/-- A garbler that plays with two evaluators makes the same drafts if the same values are revealed in
the end. -/
theorem Duet.drafts_alike
    (one : Duet suite offset program budget garbler evaluator inputs drafts revealed outputs)
    (two : Duet suite offset program budget garbler other otherInputs otherDrafts otherRevealed
      otherOutputs)
    (holds : evaluator.processor.log.Holds values) (otherHolds : other.processor.log.Holds others)
    (same : revealed = otherRevealed) : drafts = otherDrafts := by
  -- The evaluators may differ in all they hold. From one slice to the next the garbler is told
  -- something at a restart only, so the other cases are decided by its machine alone.
  induction one generalizing other otherInputs otherDrafts otherOutputs values others with
  | done portion few =>
      cases two with
      | done otherPortion =>
          cases portion.garbles.symm.trans otherPortion.garbles
          rfl
      | time otherPortion => cases portion.garbles.symm.trans otherPortion.garbles
      | restart otherPortion => cases portion.garbles.symm.trans otherPortion.garbles
  | time portion rest inductionHypothesis =>
      obtain ⟨more, held⟩ := portion.holds holds
      cases two with
      | done otherPortion => cases portion.garbles.symm.trans otherPortion.garbles
      | restart otherPortion => cases portion.garbles.symm.trans otherPortion.garbles
      | time otherPortion otherRest =>
          obtain ⟨otherMore, otherHeld⟩ := otherPortion.holds otherHolds
          cases portion.garbles.symm.trans otherPortion.garbles
          rw [inductionHypothesis otherRest held otherHeld same]
  | restart portion few rest inductionHypothesis =>
      obtain ⟨more, held⟩ := portion.holds holds
      cases two with
      | done otherPortion => cases portion.garbles.symm.trans otherPortion.garbles
      | time otherPortion => cases portion.garbles.symm.trans otherPortion.garbles
      | restart otherPortion otherFew otherRest =>
          obtain ⟨otherMore, otherHeld⟩ := otherPortion.holds otherHolds
          have size := portion.size_eq
          have otherSize := otherPortion.size_eq
          cases portion.garbles.symm.trans otherPortion.garbles
          -- the garbler has logged as many values, so it is told the same ones
          have entries := size.trans otherSize.symm
          have log := held.opening.eq_of_beginning otherHeld.opening (same ▸ rest.begins held)
            (otherRest.begins otherHeld) entries entries
          rw [← log] at otherRest
          rw [inductionHypothesis otherRest held held same]

end

namespace Run

variable {usable : String → Bool}
  {garblerTask evaluatorTask otherGarbler otherEvaluator : Task}
  {garblerGenerator evaluatorGenerator : suite.Generator}
  {garblerEvents garblerOthers : List (Event (Garbler.Phase suite))}
  {evaluatorEvents evaluatorOthers : List (Event (Evaluator.Phase suite))}
  {final last : Network (Garbler.Phase suite) Outcome (Evaluator.Phase suite) Outcome}

/-- In a run in continuous mode in which both parties succeed, the evaluator hears in its setup the
announcement and the message of the garbler's setup, and then it plays its rounds. -/
theorem evaluator_plays {message : Bytes} {garblerTransfer evaluatorTransfer : LabelTransfer suite}
    {rest : suite.Generator}
    (entrance : Entrance garblerGenerator evaluatorGenerator message garblerTransfer
      evaluatorTransfer rest)
    (lawful : suite.Lawful) (continuous : Continuous garblerTask evaluatorTask)
    (run : Network.Run (parties suite usable garblerTask evaluatorTask)
      (start suite usable garblerTask evaluatorTask garblerGenerator evaluatorGenerator)
      garblerEvents evaluatorEvents final) {first second : Outputs}
    (garblerEnds : final.garbler = .ended (.ok first))
    (evaluatorEnds : final.evaluator = .ended (.ok second)) :
    ∃ setup evaluator after exchanges,
      (Evaluator.enter evaluatorTask).Succeeds ({}, evaluatorGenerator) setup evaluator after ∧
      Evaluator.Plays evaluatorTask evaluator exchanges second ∧
      Exchange.incoming setup = [garblerTask.announcement, message] ∧
      Event.sent evaluatorEvents = Exchange.outgoing setup ++ Exchange.outgoing exchanges := by
  obtain ⟨_, _, _, messages, _, _, _, sent, _⟩ :=
    duet_of_entrance entrance lawful continuous run garblerEnds evaluatorEnds
  have follows : (Activity.running (Evaluator.rounds usable evaluatorTask
      (.entering evaluatorGenerator))).Follows (Evaluator.rounds usable evaluatorTask)
      evaluatorEvents (.ended (.ok second)) := evaluatorEnds ▸ run.follows.2
  obtain ⟨visited, visits, rfl⟩ := follows.visits
  obtain ⟨setup, evaluator, after, exchanges, enters, plays, split⟩ :=
    Evaluator.of_visits_entering (continuous.typed ▸ continuous.mode) visits
  refine ⟨setup, evaluator, after, exchanges, enters, plays, ?_, ?_⟩
  · obtain ⟨_, _, handshake, points, heard⟩ := Evaluator.entered_of_enter enters
    have delivered := run.delivers.1
    rw [Event.received_ofVisited, split, Exchange.incoming_append, heard, sent] at delivered
    obtain ⟨one, two⟩ := List.cons.inj delivered
    rw [heard, one, (List.cons.inj two).1]
  · rw [Event.sent_ofVisited, split, Exchange.outgoing_append]

/-- What a party sends depends on the inputs of the other one only through the values that are
revealed to both. Take two runs in continuous mode in which all parties succeed, with the same
generators, that reveal the same values. If the garblers have the same program, inputs and time
slice, then they send the same stream of batches; if the evaluators have, they send the same
messages. -/
theorem transcripts_agree (lawful : suite.Lawful)
    (continuous : Continuous garblerTask evaluatorTask)
    (otherContinuous : Continuous otherGarbler otherEvaluator)
    (run : Network.Run (parties suite usable garblerTask evaluatorTask)
      (start suite usable garblerTask evaluatorTask garblerGenerator evaluatorGenerator)
      garblerEvents evaluatorEvents final)
    (otherRun : Network.Run (parties suite usable otherGarbler otherEvaluator)
      (start suite usable otherGarbler otherEvaluator garblerGenerator evaluatorGenerator)
      garblerOthers evaluatorOthers last) {first second otherFirst otherSecond : Outputs}
    (garblerEnds : final.garbler = .ended (.ok first))
    (evaluatorEnds : final.evaluator = .ended (.ok second))
    (otherGarblerEnds : last.garbler = .ended (.ok otherFirst))
    (otherEvaluatorEnds : last.evaluator = .ended (.ok otherSecond))
    (reveal : second.revealed = otherSecond.revealed) :
    (garblerTask.Resembles otherGarbler →
      Event.stream garblerEvents = Event.stream garblerOthers) ∧
    (evaluatorTask.Resembles otherEvaluator →
      Event.sent evaluatorEvents = Event.sent evaluatorOthers) := by
  constructor
  · intro resembles
    obtain ⟨drafts, _, _, duet, _, rfl, stream, _⟩ :=
      duet_of_run lawful continuous run garblerEnds evaluatorEnds
    obtain ⟨otherDrafts, _, _, otherDuet, _, rfl, otherStream, _⟩ :=
      duet_of_run lawful otherContinuous otherRun otherGarblerEnds otherEvaluatorEnds
    have whole := duet.resembled resembles ⟨rfl, rfl, rfl⟩
    rw [stream, otherStream, whole.drafts_alike otherDuet .empty .empty reveal]
  · intro resembles
    obtain ⟨message, _, _, _, entrance⟩ := agree_enter lawful garblerGenerator evaluatorGenerator
    obtain ⟨setup, evaluator, _, exchanges, enters, plays, heard, sent⟩ :=
      evaluator_plays entrance lawful continuous run garblerEnds evaluatorEnds
    obtain ⟨otherSetup, other, _, others, otherEnters, otherPlays, otherHeard, otherSent⟩ :=
      evaluator_plays entrance lawful otherContinuous otherRun otherGarblerEnds otherEvaluatorEnds
    have typed : evaluatorTask.typed = otherEvaluator.typed := by
      rw [← continuous.typed, ← otherContinuous.typed, continuous.mode, otherContinuous.mode]
    have announces : garblerTask.announcement = otherGarbler.announcement := by
      rw [Task.announcement, Task.announcement, continuous.typed, otherContinuous.typed,
        continuous.timeSlice, otherContinuous.timeSlice, typed, resembles.timeSlice]
    obtain ⟨greets, abreast⟩ := Evaluator.enter_alike resembles typed enters otherEnters
      (by rw [heard, otherHeard, announces])
    obtain ⟨_, begins, _⟩ := Evaluator.entered_of_enter enters
    obtain ⟨_, otherBegins, _⟩ := Evaluator.entered_of_enter otherEnters
    have known : evaluator.machine.processor.log.Holds [] := by
      rw [begins]
      exact .empty
    have otherKnown : other.machine.processor.log.Holds [] := by
      rw [otherBegins]
      exact .empty
    rw [sent, otherSent, greets, plays.sends_alike otherPlays abreast resembles.program
      resembles.timeSlice known otherKnown reveal]

end Run

/-- Both parties learn whether both of them have a set bit, and have to wait for that; then the
evaluator alone learns the bit of the garbler. -/
def Program.glimpse : Program where
  instructions := #[.garblerInput 0, .evaluatorInput 1, .and 2 0 1, .reveal 0 [2],
    .jumpIfZero 0 5, .output [0]]
  memorySize := 0
  faultless := by decide

/-- The task of a party with the bit, in continuous mode. -/
def Task.ofGlimpse (bit : Bool) : Task := ⟨.continuous, {}, .glimpse, [bit]⟩

theorem Continuous.ofGlimpse (first second : Bool) :
    Continuous (.ofGlimpse first) (.ofGlimpse second) :=
  ⟨⟨rfl, rfl, rfl, rfl, rfl⟩, rfl⟩

/-- What the reference interpreter comes to if the parties have these bits. -/
def Reference.ofGlimpse (first second : Bool) : Reference where
  counter := 6
  secrets := #[some first, some second, some (first && second)]
  clears := #[some (Bits.value [first && second])]
  memory := Program.glimpse.memory
  garblerInputs := []
  evaluatorInputs := []
  revealed := [Bits.value [first && second]]
  outputs := [Bits.value [first]]

theorem Reference.finishes_glimpse (first second : Bool) :
    Finishes .glimpse (.start .glimpse [first] [second]) Program.glimpse.instructions.toList
      (.ofGlimpse first second) := by
  constructor
  · cases first <;> cases second <;>
      exact .step rfl rfl (.step rfl rfl (.step rfl rfl (.step rfl rfl (.step rfl rfl
        (.step rfl rfl .refl)))))
  · rfl

namespace Run

theorem exists_glimpse (first second : Bool) (generator : Suite.exponents.Generator) :
    ∃ garblerEvents evaluatorEvents final,
      Network.Run
        (parties Suite.exponents (fun _ => true) (.ofGlimpse first) (.ofGlimpse second))
        (start Suite.exponents (fun _ => true) (.ofGlimpse first) (.ofGlimpse second) generator
          generator) garblerEvents evaluatorEvents final ∧
      final.garbler = .ended (.ok { revealed := [Bits.value [first && second]] }) ∧
      final.evaluator = .ended (.ok
        { revealed := [Bits.value [first && second]]
          evaluatorOnly := [Bits.value [first]] }) := by
  have values : (Reference.ofGlimpse first second).revealed.length < UInt64.size :=
    show 1 < UInt64.size by decide
  obtain ⟨garblerEvents, evaluatorEvents, final, run, garblerEnds, evaluatorEnds, _⟩ :=
    @exists_run Suite.exponents (fun _ => true) Suite.exponents_lawful _ _
      (.ofGlimpse first second) generator generator _ _ (Reference.finishes_glimpse first second)
      (by decide) values
  exact ⟨garblerEvents, evaluatorEvents, final, run, garblerEnds, evaluatorEnds⟩

/-- A garbler without a set bit sends the same batches whatever the bit of the evaluator is, and an
evaluator without a set bit sends the same messages whatever the bit of the garbler is, although it
learns that bit. -/
theorem glimpse_transcripts_agree :
    let suite := Suite.exponents
    let generator : suite.Generator := .ofSeed []
    let begin_ (first second : Bool) :=
      start suite (fun _ => true) (.ofGlimpse first) (.ofGlimpse second) generator generator
    let parties (first second : Bool) :=
      parties suite (fun _ => true) (.ofGlimpse first) (.ofGlimpse second)
    suite.Lawful ∧ (∀ first second, Continuous (.ofGlimpse first) (.ofGlimpse second)) ∧
    (∃ garblerEvents evaluatorEvents final garblerOthers evaluatorOthers last,
      Network.Run (parties false false) (begin_ false false) garblerEvents evaluatorEvents final ∧
      Network.Run (parties false true) (begin_ false true) garblerOthers evaluatorOthers last ∧
      final.evaluator = .ended (.ok { revealed := [0], evaluatorOnly := [0] }) ∧
      last.evaluator = .ended (.ok { revealed := [0], evaluatorOnly := [0] }) ∧
      Event.stream garblerEvents = Event.stream garblerOthers) ∧
    ∃ garblerEvents evaluatorEvents final garblerOthers evaluatorOthers last,
      Network.Run (parties false false) (begin_ false false) garblerEvents evaluatorEvents final ∧
      Network.Run (parties true false) (begin_ true false) garblerOthers evaluatorOthers last ∧
      final.evaluator = .ended (.ok { revealed := [0], evaluatorOnly := [0] }) ∧
      last.evaluator = .ended (.ok { revealed := [0], evaluatorOnly := [1] }) ∧
      Event.sent evaluatorEvents = Event.sent evaluatorOthers := by
  intro suite generator begin_ parties
  obtain ⟨_, _, _, run, garblerEnds, evaluatorEnds⟩ := exists_glimpse false false generator
  obtain ⟨_, _, _, second, secondGarblerEnds, secondEvaluatorEnds⟩ :=
    exists_glimpse false true generator
  obtain ⟨_, _, _, third, thirdGarblerEnds, thirdEvaluatorEnds⟩ :=
    exists_glimpse true false generator
  obtain ⟨sameStream, _⟩ := transcripts_agree Suite.exponents_lawful (.ofGlimpse false false)
    (.ofGlimpse false true) run second garblerEnds evaluatorEnds secondGarblerEnds
    secondEvaluatorEnds rfl
  obtain ⟨_, sameAnswers⟩ := transcripts_agree Suite.exponents_lawful (.ofGlimpse false false)
    (.ofGlimpse true false) run third garblerEnds evaluatorEnds thirdGarblerEnds
    thirdEvaluatorEnds rfl
  exact ⟨Suite.exponents_lawful, .ofGlimpse,
    ⟨_, _, _, _, _, _, run, second, evaluatorEnds, secondEvaluatorEnds,
      sameStream ⟨rfl, rfl, rfl⟩⟩,
    ⟨_, _, _, _, _, _, run, third, evaluatorEnds, thirdEvaluatorEnds,
      sameAnswers ⟨rfl, rfl, rfl⟩⟩⟩

end Run

end Garbling
