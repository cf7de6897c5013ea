import Mathlib
import Garbling.Proofs.ContinuousSlice
import Garbling.Proofs.Exponents
import Garbling.Role.Run

/-!
# Runs in continuous mode

In continuous mode partners play a duet to its end, slice by slice. If the reference interpreter
finishes the program then there is a duet, so every run of honest parties comes to the values of
the reference interpreter, in whatever order the parties take their steps.
-/

namespace Garbling

open Session

variable {suite : Suite} {usable : String → Bool}

namespace Garbler

/-- How the garbler ends a slice in continuous mode. -/
def close : Break → Session (Garbler suite) (Next Unit Outputs)
  | .restart => do
      rewind
      receiveOpenings
      return .again ()
  | .time => return .again ()
  | .done => do
      BatchStream.sendDone
      receiveOpenings
      return .finish (← get).outputs

theorem sliceContinuous_eq (task : Task) :
    (sliceContinuous task : Session (Garbler suite) _) = onSlice task close := rfl

/-- The round of the garbler that a session makes. -/
abbrev roundOf (garbler : Garbler suite) (session : Session (Garbler suite) (Next Unit Outputs)) :
    Process (Next (Phase suite) (Except Error Outputs)) :=
  session.toRound garbler fun garbler _ => .slicing garbler

/-- The garbler's slice in the given phase ends so. -/
def Ends (task : Task) (ending : Break) : Phase suite → Prop
  | .entering _ => False
  | .slicing garbler =>
      (Machine.execute (GarblingState.backend suite garbler.offset) task.program
        task.settings.timeSlice.toNat garbler.machine).1 = .ok ending

end Garbler

namespace Evaluator

/-- How the evaluator ends a slice in continuous mode. -/
def close : Break → Session (Evaluator suite) (Next Unit Outputs)
  | .restart => do
      rewind
      sendOpenings
      return .again ()
  | .time => return .again ()
  | .done => do
      match ← BatchStream.receive with
      | some _ => throw (.violation .missingDone)
      | none => return .finish (← conclude)

theorem sliceContinuous_eq (task : Task) :
    (sliceContinuous task : Session (Evaluator suite) _) = onSlice task close := rfl

end Evaluator

/-- What a transcript tells of a stream that begins with the batch of the given number. -/
def streamEntries : (number : UInt64) → List Draft → List Entry
  | _, [] => [.done]
  | number, draft :: drafts => draft.entries number ++ streamEntries (number + 1) drafts

section

variable {garbler : Garbler suite} {evaluator : Evaluator suite}

/-- What both parties do at the end of a slice without having to wait. -/
theorem agree_close_time :
    Agree (Garbler.close .time) (Evaluator.close .time) garbler evaluator []
      (.again (), garbler) (.again (), evaluator) :=
  agree_of_silent (succeeds_pure _ _) (succeeds_pure _ _)

/-- What both parties do at the end of a slice after which the garbler has to wait. -/
theorem agree_close_restart
    (opens : garbler.machine.processor.log.applyOpenings
      evaluator.machine.processor.log.takeOpenings.1 = .ok evaluator.machine.processor.log.opening)
    (few : evaluator.machine.processor.log.takeOpenings.1.length < UInt64.size) :
    Agree (Garbler.close .restart) (Evaluator.close .restart) garbler evaluator []
      (.again (), { garbler with
        machine := garbler.machine.resumed evaluator.machine.processor.log.opening })
      (.again (), { evaluator with
        machine := evaluator.machine.resumed evaluator.machine.processor.log.opening }) := by
  apply Agree.bind_garbler (succeeds_modify _ garbler)
  apply Agree.bind_evaluator (succeeds_modify _ evaluator)
  refine Agree.garbler_then (Agree.evaluator_then (agree_openings opens few) ?_) ?_
  · exact succeeds_pure _ _
  · exact succeeds_pure _ _

/-- What both parties do at the end of the program. -/
theorem agree_close_done
    (opens : garbler.machine.processor.log.applyOpenings
      evaluator.machine.processor.log.takeOpenings.1 = .ok evaluator.machine.processor.log.opening)
    (few : evaluator.machine.processor.log.takeOpenings.1.length < UInt64.size) :
    Agree (Garbler.close .done) (Evaluator.close .done) garbler evaluator [BatchStream.tag .done]
      (.finish { revealed := evaluator.machine.processor.log.opening.revealed },
        garbler.opened evaluator.machine.processor.log.opening)
      (.finish
        { revealed := evaluator.machine.processor.log.opening.revealed
          evaluatorOnly := evaluator.machine.backend.outputs.toList },
        evaluator.opened evaluator.machine.processor.log.opening) := by
  rw [← List.append_nil [BatchStream.tag .done]]
  apply Agree.bind (BatchStream.agree_done garbler evaluator)
  refine Agree.garbler_then (Agree.evaluator_then (agree_conclude opens few) ?_) ?_
  · exact succeeds_pure _ _
  · apply Succeeds.bind (succeeds_get _)
    exact succeeds_pure _ _

end

/-- The tasks of both parties for the same run in continuous mode. -/
structure Continuous (garbler evaluator : Task) : Prop extends Alike garbler evaluator where
  mode : garbler.typed = .continuous

namespace Continuous

variable {garblerTask evaluatorTask : Task} {garbler garblerMiddle garblerFinal : Garbler suite}
  {evaluator evaluatorMiddle evaluatorFinal : Evaluator suite} {messages more : List Bytes}
  {ending : Break}

/-- A slice that both parties end with another round. -/
theorem joint_again (continuous : Continuous garblerTask evaluatorTask)
    (together : Process.Together (Garbler.onSlice garblerTask Garbler.close garbler)
      (Evaluator.onSlice evaluatorTask Evaluator.close evaluator) messages
      (Garbler.close ending garblerMiddle) (Evaluator.close ending evaluatorMiddle))
    (agree : Agree (Garbler.close ending) (Evaluator.close ending) garblerMiddle evaluatorMiddle
      more (.again (), garblerFinal) (.again (), evaluatorFinal)) :
    (Run.parties suite usable garblerTask evaluatorTask).Joint
      (.running (Garbler.rounds garblerTask (.slicing garbler)))
      (.running (Evaluator.rounds usable evaluatorTask (.evaluating evaluator)))
      (messages ++ more) [.slicing garblerFinal]
      (.running (Garbler.rounds garblerTask (.slicing garblerFinal)))
      (.running (Evaluator.rounds usable evaluatorTask (.evaluating evaluatorFinal))) := by
  have whole : Agree (Garbler.slice garblerTask) (Evaluator.sliceContinuous evaluatorTask) garbler
      evaluator (messages ++ more) (.again (), garblerFinal) (.again (), evaluatorFinal) := by
    rw [Garbler.slice, continuous.mode, Garbler.sliceContinuous_eq,
      Evaluator.sliceContinuous_eq]
    exact together.trans agree
  exact whole.again

/-- A slice with which both parties finish. -/
theorem joint_finish (continuous : Continuous garblerTask evaluatorTask)
    (together : Process.Together (Garbler.onSlice garblerTask Garbler.close garbler)
      (Evaluator.onSlice evaluatorTask Evaluator.close evaluator) messages
      (Garbler.close ending garblerMiddle) (Evaluator.close ending evaluatorMiddle))
    {first second : Outputs}
    (agree : Agree (Garbler.close ending) (Evaluator.close ending) garblerMiddle evaluatorMiddle
      more (.finish first, garblerFinal) (.finish second, evaluatorFinal)) :
    (Run.parties suite usable garblerTask evaluatorTask).Joint
      (.running (Garbler.rounds garblerTask (.slicing garbler)))
      (.running (Evaluator.rounds usable evaluatorTask (.evaluating evaluator)))
      (messages ++ more) [] (.ended (.ok first)) (.ended (.ok second)) := by
  have whole : Agree (Garbler.slice garblerTask) (Evaluator.sliceContinuous evaluatorTask) garbler
      evaluator (messages ++ more) (.finish first, garblerFinal)
      (.finish second, evaluatorFinal) := by
    rw [Garbler.slice, continuous.mode, Garbler.sliceContinuous_eq,
      Evaluator.sliceContinuous_eq]
    exact together.trans agree
  exact whole.finish

end Continuous

/-- Partners play a duet to its end. Each round of the garbler is a slice of the duet, and the
messages carry the batches of the duet. -/
theorem Duet.continuous (lawful : suite.Lawful) {garblerTask evaluatorTask : Task}
    (continuous : Continuous garblerTask evaluatorTask) {offset : Offset}
    {garbler : Machine Label (GarblingState suite)} {evaluator : Machine Label EvaluationState}
    {inputs : List Bool} {drafts : List (Draft × Break)} {revealed outputs : List UInt64}
    (duet : Duet suite offset garblerTask.program garblerTask.settings.timeSlice.toNat garbler
      evaluator inputs drafts revealed outputs)
    {garblerTransfer evaluatorTransfer : LabelTransfer suite} {number expected : UInt64}
    (partners : Partners ⟨offset, garblerTransfer, garbler, number⟩
      ⟨evaluatorTransfer, evaluator, inputs, expected⟩) :
    ∃ messages phases,
      (Run.parties suite usable garblerTask evaluatorTask).Joint
        (.running (Garbler.rounds garblerTask
          (.slicing ⟨offset, garblerTransfer, garbler, number⟩)))
        (.running (Evaluator.rounds usable evaluatorTask
          (.evaluating ⟨evaluatorTransfer, evaluator, inputs, expected⟩)))
        messages phases (.ended (.ok { revealed }))
        (.ended (.ok { revealed, evaluatorOnly := outputs })) ∧
      Transcript.Carries messages (streamEntries number (drafts.map Prod.fst)) ∧
      List.Forall₂ (fun phase draft => Garbler.Ends garblerTask draft.2 phase)
        (.slicing ⟨offset, garblerTransfer, garbler, number⟩ :: phases) drafts := by
  induction duet generalizing garblerTransfer evaluatorTransfer number expected with
  | done portion few =>
      obtain ⟨messages, _, _, together, carries, _⟩ :=
        portion.together lawful partners continuous.toAlike Garbler.close Evaluator.close
      refine ⟨_, [],
        continuous.joint_finish together (agree_close_done portion.opens few),
        carries.append Transcript.carries_done, .cons ?_ .nil⟩
      exact congrArg Prod.fst portion.garbles
  | time portion rest inductionHypothesis =>
      obtain ⟨messages, _, _, together, carries, partnersAfter⟩ :=
        portion.together lawful partners continuous.toAlike Garbler.close Evaluator.close
      obtain ⟨more, phases, joint, carriesMore, ends⟩ := inductionHypothesis partnersAfter
      refine ⟨_, _, (continuous.joint_again together agree_close_time).trans joint,
        ?_, .cons ?_ ends⟩
      · rw [List.append_nil]
        exact carries.append carriesMore
      · exact congrArg Prod.fst portion.garbles
  | restart portion few rest inductionHypothesis =>
      obtain ⟨messages, _, _, together, carries, partnersAfter⟩ :=
        portion.together lawful partners continuous.toAlike Garbler.close Evaluator.close
      obtain ⟨more, phases, joint, carriesMore, ends⟩ :=
        inductionHypothesis ⟨partnersAfter.linked, partnersAfter.served, partnersAfter.number⟩
      refine ⟨_, _, (continuous.joint_again together
        (agree_close_restart portion.opens few)).trans joint, ?_, .cons ?_ ends⟩
      · rw [List.append_nil]
        exact carries.append carriesMore
      · exact congrArg Prod.fst portion.garbles

/-- A duet from the start of the program to its end. -/
abbrev Duet.Whole (garblerTask evaluatorTask : Task) (garblerGenerator : suite.Generator)
    (drafts : List (Draft × Break)) (revealed outputs : List UInt64) : Prop :=
  Duet suite (Garbler.drawnOffset garblerGenerator) garblerTask.program
    garblerTask.settings.timeSlice.toNat
    (.start garblerTask.program
      { generator := Garbler.enteredGenerator garblerGenerator, inputs := garblerTask.inputs })
    (.start garblerTask.program {}) evaluatorTask.inputs drafts revealed outputs

/-- The setup of both parties leads them to their first slice. -/
theorem Continuous.joint_enter {garblerTask evaluatorTask : Task}
    (continuous : Continuous garblerTask evaluatorTask) {garblerGenerator : suite.Generator}
    {evaluatorGenerator : suite.Generator} {messages : List Bytes} {garbler : Garbler suite}
    {evaluator : Evaluator suite} {garblerRest evaluatorRest : LabelTransfer suite × suite.Generator}
    (agree : Agree (Garbler.enter garblerTask) (Evaluator.enter evaluatorTask)
      ({}, garblerGenerator) ({}, evaluatorGenerator) messages (garbler, garblerRest)
      (evaluator, evaluatorRest)) :
    (Run.parties suite usable garblerTask evaluatorTask).Joint
      (.running (Garbler.rounds garblerTask (.entering garblerGenerator)))
      (.running (Evaluator.rounds usable evaluatorTask (.entering evaluatorGenerator)))
      messages [.slicing garbler]
      (.running (Garbler.rounds garblerTask (.slicing garbler)))
      (.running (Evaluator.rounds usable evaluatorTask (.evaluating evaluator))) := by
  have mode := continuous.mode
  rw [continuous.typed] at mode
  refine (?_ : Agree _ _ _ _ _ (Next.again garbler, garblerRest)
    (Next.again (Evaluator.Phase.evaluating evaluator), evaluatorRest)).again
  refine Agree.garbler_then (Agree.evaluator_then agree ?_) ?_
  · rw [mode]
    exact succeeds_pure _ _
  · exact succeeds_pure _ _

/-- The setup of parties whose program the reference interpreter finishes makes partners with a
duet to play. It comes to the values of the interpreter, and no slice asks for a restart if no
instruction needs a value that was revealed before it. -/
theorem Alike.agree_duet (lawful : suite.Lawful) {garblerTask evaluatorTask : Task}
    (alike : Alike garblerTask evaluatorTask)
    (garblerGenerator evaluatorGenerator : suite.Generator) {path : List Instruction}
    {final : Reference}
    (finishes : Reference.Finishes garblerTask.program
      (.start garblerTask.program garblerTask.inputs evaluatorTask.inputs) path final)
    (masks : (path.map Instruction.width).sum < UInt64.size)
    (values : final.revealed.length < UInt64.size) :
    ∃ messages garbler evaluator garblerRest evaluatorRest drafts,
      Agree (Garbler.enter garblerTask) (Evaluator.enter evaluatorTask) ({}, garblerGenerator)
        ({}, evaluatorGenerator) messages (garbler, garblerRest) (evaluator, evaluatorRest) ∧
      Partners garbler evaluator ∧
      Duet suite garbler.offset garblerTask.program garblerTask.settings.timeSlice.toNat
        garbler.machine evaluator.machine evaluator.inputs drafts final.revealed final.outputs ∧
      (Instruction.NeverWaits ∅ path → ∀ draft ∈ drafts, draft.2 ≠ .restart) := by
  obtain ⟨message, garblerTransfer, evaluatorTransfer, rest, partners, enters⟩ :=
    agree_enter lawful garblerGenerator evaluatorGenerator
  rw [← Machine.reference_start] at finishes
  obtain ⟨drafts, duet, _, never⟩ := (Trio.start garblerTask.program
    (Garbler.enteredGenerator garblerGenerator) garblerTask.inputs evaluatorTask.inputs).duet
    (Garbler.colored_drawnOffset garblerGenerator) (.start _) finishes
    (Settings.timeSlice_pos alike.garblerValid) garblerTask.settings.timeSlice.toNat_lt_size masks
    values
  refine ⟨_, _, _, _, _, drafts, enters alike, partners garblerTask evaluatorTask, ?_,
    never ∅ (.start _)⟩
  rw [Evaluator.entered, ← alike.program]
  exact duet

/-- Honest parties come to the values of the reference interpreter together, if it finishes the
program. -/
theorem Continuous.joint_of_finishes (lawful : suite.Lawful) {garblerTask evaluatorTask : Task}
    (continuous : Continuous garblerTask evaluatorTask)
    (garblerGenerator evaluatorGenerator : suite.Generator) {path : List Instruction}
    {final : Reference}
    (finishes : Reference.Finishes garblerTask.program
      (.start garblerTask.program garblerTask.inputs evaluatorTask.inputs) path final)
    (masks : (path.map Instruction.width).sum < UInt64.size)
    (values : final.revealed.length < UInt64.size) :
    ∃ messages phases, (Run.parties suite usable garblerTask evaluatorTask).Joint
      (.running (Garbler.rounds garblerTask (.entering garblerGenerator)))
      (.running (Evaluator.rounds usable evaluatorTask (.entering evaluatorGenerator)))
      messages phases (.ended (.ok { revealed := final.revealed }))
      (.ended (.ok { revealed := final.revealed, evaluatorOnly := final.outputs })) := by
  obtain ⟨_, _, _, _, _, drafts, enters, partners, duet, _⟩ :=
    continuous.agree_duet lawful garblerGenerator evaluatorGenerator finishes masks values
  have entered := @Continuous.joint_enter suite usable _ _ continuous _ _ _ _ _ _ _ enters
  obtain ⟨messages, phases, played, _, _⟩ := duet.continuous lawful continuous partners
  exact ⟨_, _, entered.trans played⟩

/-- Where honest parties get together from their start, a run is on course to it. -/
theorem Run.on_course {garblerTask evaluatorTask : Task}
    {garblerGenerator evaluatorGenerator : suite.Generator} {messages : List Bytes}
    {phases : List (Garbler.Phase suite)} {garblerAfter : Activity (Garbler.Phase suite) Outcome}
    {evaluatorAfter : Activity (Evaluator.Phase suite) Outcome}
    (joint : (Run.parties suite usable garblerTask evaluatorTask).Joint
      (.running (Garbler.rounds garblerTask (.entering garblerGenerator)))
      (.running (Evaluator.rounds usable evaluatorTask (.entering evaluatorGenerator)))
      messages phases garblerAfter evaluatorAfter) :
    ∃ garblerAhead evaluatorAhead,
      Network.OnCourse (Run.parties suite usable garblerTask evaluatorTask)
        (Run.start suite usable garblerTask evaluatorTask garblerGenerator evaluatorGenerator)
        garblerAhead evaluatorAhead garblerAfter evaluatorAfter ∧
      Event.sent garblerAhead = messages ∧ Event.begun garblerAhead = phases :=
  Parties.Joint.on_course joint

/-- Runs in continuous mode are right. If the reference interpreter finishes the program then,
in whatever order the honest parties take their steps, both come to its values. The parties count
their messages by 64 bit words, so there must be fewer values and masks. -/
theorem Run.continuous_correct (lawful : suite.Lawful) {garblerTask evaluatorTask : Task}
    (continuous : Continuous garblerTask evaluatorTask)
    (garblerGenerator evaluatorGenerator : suite.Generator) {path : List Instruction}
    {final : Reference}
    (finishes : Reference.Finishes garblerTask.program
      (.start garblerTask.program garblerTask.inputs evaluatorTask.inputs) path final)
    (masks : (path.map Instruction.width).sum < UInt64.size)
    (values : final.revealed.length < UInt64.size) :
    (Run.start suite usable garblerTask evaluatorTask garblerGenerator evaluatorGenerator).Leads
      (Run.parties suite usable garblerTask evaluatorTask) (fun _ => True) fun network =>
        network.garbler = .ended (.ok { revealed := final.revealed }) ∧
          network.evaluator =
            .ended (.ok { revealed := final.revealed, evaluatorOnly := final.outputs }) := by
  obtain ⟨messages, phases, joint⟩ :=
    continuous.joint_of_finishes lawful garblerGenerator evaluatorGenerator finishes masks values
  exact joint.leads

/-- The task of a party with a set bit, in continuous mode. -/
def Task.ofConjunction : Task := ⟨.continuous, {}, .conjunction, [true]⟩

theorem Continuous.ofConjunction : Continuous .ofConjunction .ofConjunction where
  typed := rfl
  program := rfl
  timeSlice := rfl
  garblerValid := rfl
  evaluatorValid := rfl
  mode := rfl

/-- What the reference interpreter comes to if both parties have a set bit. -/
def Reference.ofConjunction : Reference where
  counter := 5
  secrets := #[some true, some true, some true]
  clears := #[some 1]
  memory := Program.conjunction.memory
  garblerInputs := []
  evaluatorInputs := []
  revealed := [1]

theorem Reference.finishes_conjunction :
    Finishes .conjunction (.start .conjunction [true] [true])
      Program.conjunction.instructions.toList .ofConjunction where
  executes := .step rfl rfl (.step rfl rfl (.step rfl rfl (.step rfl rfl (.step rfl rfl .refl))))
  finished := rfl

/-- Both parties learn that both of them have a set bit. -/
theorem Run.conjunction_correct :
    let generator := ChaCha20.Generator.ofSeed []
    Suite.exponents.Lawful ∧ Continuous .ofConjunction .ofConjunction ∧
      Reference.Finishes .conjunction (.start .conjunction [true] [true])
        Program.conjunction.instructions.toList .ofConjunction ∧
      (Program.conjunction.instructions.toList.map Instruction.width).sum < UInt64.size ∧
      Reference.ofConjunction.revealed.length < UInt64.size ∧
      (Run.start Suite.exponents (fun _ => true) .ofConjunction .ofConjunction generator
          generator).Leads
        (Run.parties Suite.exponents (fun _ => true) .ofConjunction .ofConjunction)
        (fun _ => True) fun network =>
          network.garbler = .ended (.ok { revealed := [1] }) ∧
            network.evaluator = .ended (.ok { revealed := [1] }) := by
  intro generator
  have masks : (Program.conjunction.instructions.toList.map Instruction.width).sum <
      UInt64.size := by decide
  have values : Reference.ofConjunction.revealed.length < UInt64.size := by decide
  exact ⟨Suite.exponents_lawful, .ofConjunction, Reference.finishes_conjunction, masks, values,
    Run.continuous_correct Suite.exponents_lawful .ofConjunction generator generator
      Reference.finishes_conjunction masks values⟩

end Garbling
