import Mathlib
import Garbling.Proofs.Failures
import Garbling.Proofs.Hearing

/-!
# What can become of a run in continuous mode

Partners that are in step go on slice by slice, until one of them fails or both come to the end of
the program. Any number of slices can be foreseen. If both parties succeed then they have played a
duet.
-/

namespace Garbling

open Session

variable {suite : Suite} {usable : String → Bool}

section

variable {garbler : Garbler suite} {evaluator : Evaluator suite}

/-- A restart after which there are openings that cannot be counted by a word. -/
theorem together_close_restart
    (opens : garbler.machine.processor.log.applyOpenings
      evaluator.machine.processor.log.takeOpenings.1 = .ok evaluator.machine.processor.log.opening)
    (many : UInt64.size ≤ evaluator.machine.processor.log.takeOpenings.1.length) :
    ∃ error garblerAfter evaluatorAfter, Process.Together (Garbler.close .restart garbler)
      (Evaluator.close .restart evaluator) [] (.done (.error error, garblerAfter))
      ((pure (.again ()) : Session (Evaluator suite) (Next Unit Outputs)) evaluatorAfter) := by
  let garblerBack : Garbler suite :=
    { garbler with machine.processor := garbler.machine.processor.rewind }
  let evaluatorBack : Evaluator suite :=
    { evaluator with machine.processor := evaluator.machine.processor.rewind }
  obtain ⟨error, refused⟩ := @together_refused suite _ _ garblerBack evaluatorBack opens many
    (fun _ => (pure (.again ()) : Session (Garbler suite) (Next Unit Outputs)))
    (fun _ => (pure (.again ()) : Session (Evaluator suite) (Next Unit Outputs)))
  exact ⟨error, _, _, refused⟩

/-- An end of the program with openings that cannot be counted by a word. -/
theorem together_close_done
    (opens : garbler.machine.processor.log.applyOpenings
      evaluator.machine.processor.log.takeOpenings.1 = .ok evaluator.machine.processor.log.opening)
    (many : UInt64.size ≤ evaluator.machine.processor.log.takeOpenings.1.length) :
    ∃ error garblerAfter evaluatorAfter, Process.Together (Garbler.close .done garbler)
      (Evaluator.close .done evaluator) [BatchStream.tag .done]
      (.done (.error error, garblerAfter))
      ((pure (.finish
        { revealed := evaluator.machine.processor.log.opening.revealed
          evaluatorOnly := evaluator.machine.backend.outputs.toList }) :
        Session (Evaluator suite) (Next Unit Outputs)) evaluatorAfter) := by
  obtain ⟨error, refused⟩ := together_conclude_refused opens many
    (fun _ => (do return .finish (← get).outputs : Session (Garbler suite) (Next Unit Outputs)))
  refine ⟨error, garbler, evaluator.opened evaluator.machine.processor.log.opening,
    (BatchStream.agree_done garbler evaluator).together.trans ?_⟩
  dsimp only
  rw [bind_apply Evaluator.conclude]
  exact refused.bind_evaluator _

end

/-- The round of the evaluator in continuous mode that a session makes. -/
abbrev Evaluator.roundOf (evaluator : Evaluator suite)
    (session : Session (Evaluator suite) (Next Unit Outputs)) :
    Process (Next (Phase suite) (Except Error Outputs)) :=
  session.toRound evaluator fun evaluator _ => .evaluating evaluator

/-- Parties stay partners when they go back to the instruction before the current one. -/
theorem Partners.resumed {garbler : Garbler suite} {evaluator : Evaluator suite}
    (partners : Partners garbler evaluator) (log : RevealLog) :
    Partners { garbler with machine := garbler.machine.resumed log }
      { evaluator with machine := evaluator.machine.resumed log } :=
  ⟨partners.linked, partners.served, partners.number⟩

namespace Continuous

variable {garblerTask evaluatorTask : Task}

/-- The round of the garbler is a slice in continuous mode. -/
theorem rounds_slicing (continuous : Continuous garblerTask evaluatorTask)
    (garbler : Garbler suite) :
    Garbler.rounds garblerTask (.slicing garbler) =
      garbler.roundOf (Garbler.onSlice garblerTask Garbler.close) := by
  rw [Garbler.rounds, Garbler.slice, continuous.mode, Garbler.sliceContinuous_eq]

/-- What is left of a slice is left of the rounds. -/
theorem joint_slice (continuous : Continuous garblerTask evaluatorTask)
    {garbler garblerMiddle : Garbler suite} {evaluator evaluatorMiddle : Evaluator suite}
    {garblerRest : Session (Garbler suite) (Next Unit Outputs)}
    {evaluatorRest : Session (Evaluator suite) (Next Unit Outputs)} {messages : List Bytes}
    (together : Process.Together (Garbler.onSlice garblerTask Garbler.close garbler)
      (Evaluator.onSlice evaluatorTask Evaluator.close evaluator) messages
      (garblerRest garblerMiddle) (evaluatorRest evaluatorMiddle)) :
    (Run.parties suite usable garblerTask evaluatorTask).Joint
      (.running (Garbler.rounds garblerTask (.slicing garbler)))
      (.running (Evaluator.rounds usable evaluatorTask (.evaluating evaluator))) messages []
      (.running (garblerMiddle.roundOf garblerRest))
      (.running (evaluatorMiddle.roundOf evaluatorRest)) := by
  rw [continuous.rounds_slicing]
  exact joint_of_together together

section

variable {agreed : Run.Outcome → Run.Outcome → Prop} {steps : Nat} {garbler : Garbler suite}
  {evaluator : Evaluator suite} {ending : Break} {machine : Machine Label (GarblingState suite)}

/-- The garbler fails in its slice. -/
theorem prospect_of_fails {error : Error}
    (garbles : Machine.execute (GarblingState.backend suite garbler.offset) garblerTask.program
      garblerTask.settings.timeSlice.toNat garbler.machine = (.error error, machine)) :
    (Run.parties suite usable garblerTask evaluatorTask).Prospect agreed steps
      (.running (Garbler.rounds garblerTask (.slicing garbler)))
      (.running (Evaluator.rounds usable evaluatorTask (.evaluating evaluator))) :=
  .of_settled (Garbler.joint_fails garbles _)
    (.garblerFails error (Evaluator.needsMessage_evaluating evaluatorTask evaluator))

/-- An evaluator that lacks inputs for the slice fails while the garbler serves them. -/
theorem joint_lacks (continuous : Continuous garblerTask evaluatorTask)
    (partners : Partners garbler evaluator)
    (garbles : Machine.execute (GarblingState.backend suite garbler.offset) garblerTask.program
      garblerTask.settings.timeSlice.toNat garbler.machine = (.ok ending, machine))
    (first : machine.backend.draft.firstGate = evaluator.machine.backend.gateCount)
    (small : machine.backend.draft.Small)
    (missing : evaluator.inputs.length < machine.backend.draft.evaluatorInputs.size) :
    ∃ messages, (Run.parties suite usable garblerTask evaluatorTask).Joint
      (.running (Garbler.rounds garblerTask (.slicing garbler)))
      (.running (Evaluator.rounds usable evaluatorTask (.evaluating evaluator))) messages []
      (.running ((Garbler.afterBatch { garbler with machine }).roundOf
        (Garbler.serveInputs >>= fun _ => Garbler.close ending)))
      (.ended (.error (.execution .missingEvaluatorInput))) := by
  have fails (next : List Label → Session (Evaluator suite) (Next Unit Outputs)) :
      (Evaluator.receiveInputLabels
        (UInt64.ofNat machine.backend.draft.evaluatorInputs.toList.length) >>= next).Fails evaluator
        [] (.execution .missingEvaluatorInput) evaluator :=
    (Evaluator.receiveInputLabels_fails (small .evaluatorInput (by decide)) missing).bind
  exact ⟨_, (continuous.joint_slice (partners.together_batch garbles first small)).trans
    ((fails _).evaluator_ends _)⟩

/-- The evaluator lacks inputs for the slice. -/
theorem prospect_of_lacks (continuous : Continuous garblerTask evaluatorTask)
    (partners : Partners garbler evaluator)
    (garbles : Machine.execute (GarblingState.backend suite garbler.offset) garblerTask.program
      garblerTask.settings.timeSlice.toNat garbler.machine = (.ok ending, machine))
    (first : machine.backend.draft.firstGate = evaluator.machine.backend.gateCount)
    (small : machine.backend.draft.Small)
    (missing : evaluator.inputs.length < machine.backend.draft.evaluatorInputs.size) :
    (Run.parties suite usable garblerTask evaluatorTask).Prospect agreed steps
      (.running (Garbler.rounds garblerTask (.slicing garbler)))
      (.running (Evaluator.rounds usable evaluatorTask (.evaluating evaluator))) := by
  obtain ⟨messages, joint⟩ := continuous.joint_lacks partners garbles first small missing
  exact .of_settled joint (.evaluatorFails _ (Garbler.needsMessage_roundOf _ _
    (hears_bind _ fun _ => Garbler.hears_close ending)))

/-- The evaluator runs out of masks in the slice. -/
theorem prospect_of_exhausts (lawful : suite.Lawful)
    (continuous : Continuous garblerTask evaluatorTask) (partners : Partners garbler evaluator)
    (garbles : Machine.execute (GarblingState.backend suite garbler.offset) garblerTask.program
      garblerTask.settings.timeSlice.toNat garbler.machine = (.ok ending, machine))
    (first : machine.backend.draft.firstGate = evaluator.machine.backend.gateCount)
    (small : machine.backend.draft.Small)
    (enough : machine.backend.draft.evaluatorInputs.size ≤ evaluator.inputs.length)
    {error : Error} {evaluatorAfter : Machine Label EvaluationState}
    (evaluates : Machine.execute (EvaluationState.backend suite.pad) garblerTask.program
      garblerTask.settings.timeSlice.toNat (evaluator.machine.loaded
        (machine.backend.draft.arrived.reader
          (machine.backend.draft.select garbler.offset evaluator.inputs))) =
      (.error error, evaluatorAfter)) :
    (Run.parties suite usable garblerTask evaluatorTask).Prospect agreed steps
      (.running (Garbler.rounds garblerTask (.slicing garbler)))
      (.running (Evaluator.rounds usable evaluatorTask (.evaluating evaluator))) := by
  rw [continuous.program, continuous.timeSlice] at evaluates
  obtain ⟨messages, garblerTransfer, evaluatorTransfer, labels, _⟩ :=
    partners.together_labels lawful small enough (Evaluator.onLabels evaluatorTask Evaluator.close
      (machine.backend.draft.arrived.batch garbler.nextBatch))
  let choosing : Evaluator suite :=
    { evaluator with
      transfer := evaluatorTransfer
      inputs := evaluator.inputs.drop machine.backend.draft.evaluatorInputs.size }
  obtain ⟨after, fails⟩ := @Evaluator.onLabels_fails suite _ evaluatorTask choosing error
    machine.backend.draft.arrived garbler.nextBatch _ _ partners.number first
    small.arrived (by simp [Draft.select, Draft.arrived, Nat.min_eq_left enough]) evaluates Evaluator.close
  exact .of_settled
    ((continuous.joint_slice ((partners.together_batch garbles first small).trans labels)).trans
      (fails.evaluator_ends _))
    (.evaluatorFails _ (Garbler.needsMessage_roundOf _ _ (Garbler.hears_close ending)))

/-- There are openings after a restart that cannot be counted. -/
theorem prospect_of_close_restart (continuous : Continuous garblerTask evaluatorTask)
    {garblerMiddle : Garbler suite} {evaluatorMiddle : Evaluator suite} {messages : List Bytes}
    (together : Process.Together (Garbler.onSlice garblerTask Garbler.close garbler)
      (Evaluator.onSlice evaluatorTask Evaluator.close evaluator) messages
      (Garbler.close .restart garblerMiddle) (Evaluator.close .restart evaluatorMiddle))
    (opens : garblerMiddle.machine.processor.log.applyOpenings
      evaluatorMiddle.machine.processor.log.takeOpenings.1 =
        .ok evaluatorMiddle.machine.processor.log.opening)
    (many : UInt64.size ≤ evaluatorMiddle.machine.processor.log.takeOpenings.1.length) :
    (Run.parties suite usable garblerTask evaluatorTask).Prospect agreed steps
      (.running (Garbler.rounds garblerTask (.slicing garbler)))
      (.running (Evaluator.rounds usable evaluatorTask (.evaluating evaluator))) := by
  obtain ⟨error, garblerAfter, evaluatorAfter, refused⟩ := together_close_restart opens many
  have fails : (throw error : Session (Garbler suite) (Next Unit Outputs)).Fails garblerAfter []
      error garblerAfter := fails_throw error garblerAfter
  exact .of_settled
    (((continuous.joint_slice (together.trans refused)).trans (fails.garbler_ends _)).trans
      (Parties.Joint.evaluator_begins _))
    (.garblerFails error (Evaluator.needsMessage_evaluating evaluatorTask evaluatorAfter))

/-- There are openings at the end of the program that cannot be counted. Only the evaluator comes to
its outputs then. -/
theorem prospect_of_close_done (continuous : Continuous garblerTask evaluatorTask)
    (overflows : ∀ error outputs, UInt64.size ≤ outputs.revealed.length →
      agreed (.error error) (.ok outputs))
    {garblerMiddle : Garbler suite} {evaluatorMiddle : Evaluator suite} {messages : List Bytes}
    (together : Process.Together (Garbler.onSlice garblerTask Garbler.close garbler)
      (Evaluator.onSlice evaluatorTask Evaluator.close evaluator) messages
      (Garbler.close .done garblerMiddle) (Evaluator.close .done evaluatorMiddle))
    (opens : garblerMiddle.machine.processor.log.applyOpenings
      evaluatorMiddle.machine.processor.log.takeOpenings.1 =
        .ok evaluatorMiddle.machine.processor.log.opening)
    (many : UInt64.size ≤ evaluatorMiddle.machine.processor.log.takeOpenings.1.length) :
    (Run.parties suite usable garblerTask evaluatorTask).Prospect agreed steps
      (.running (Garbler.rounds garblerTask (.slicing garbler)))
      (.running (Evaluator.rounds usable evaluatorTask (.evaluating evaluator))) := by
  obtain ⟨error, garblerAfter, evaluatorAfter, refused⟩ := together_close_done opens many
  have fails : (throw error : Session (Garbler suite) (Next Unit Outputs)).Fails garblerAfter []
      error garblerAfter := fails_throw error garblerAfter
  have revealed := many.trans (RevealLog.length_takeOpenings_le _)
  exact .of_settled
    (((continuous.joint_slice (together.trans refused)).trans (fails.garbler_ends _)).trans
      (Parties.Joint.evaluator_ends _))
    (.ended (overflows error _ revealed))

end

/-- From where partners are in step, any number of messages can be foreseen, unless one of the
parties fails or they play a duet to its end. -/
theorem prospect_slicing (lawful : suite.Lawful) (continuous : Continuous garblerTask evaluatorTask)
    {agreed : Run.Outcome → Run.Outcome → Prop}
    (overflows : ∀ error outputs, UInt64.size ≤ outputs.revealed.length →
      agreed (.error error) (.ok outputs))
    (steps : Nat) {garbler : Garbler suite} {evaluator : Evaluator suite}
    (partners : Partners garbler evaluator) (colored : garbler.offset.Colored)
    (inStep : Machine.InStep garbler.offset garbler.machine evaluator.machine)
    (duets : ∀ drafts revealed outputs,
      Duet suite garbler.offset garblerTask.program garblerTask.settings.timeSlice.toNat
        garbler.machine evaluator.machine evaluator.inputs drafts revealed outputs →
      agreed (.ok { revealed }) (.ok { revealed, evaluatorOnly := outputs })) :
    (Run.parties suite usable garblerTask evaluatorTask).Prospect agreed steps
      (.running (Garbler.rounds garblerTask (.slicing garbler)))
      (.running (Evaluator.rounds usable evaluatorTask (.evaluating evaluator))) := by
  induction steps generalizing garbler evaluator with
  | zero => exact .zero
  | succ steps inductionHypothesis =>
      cases inStep.turn colored garblerTask.settings.timeSlice.toNat_lt_size evaluator.inputs with
      | fails garbles => exact prospect_of_fails garbles
      | lacks garbles first small missing =>
          exact continuous.prospect_of_lacks partners garbles first small missing
      | exhausts garbles first small enough evaluates =>
          exact continuous.prospect_of_exhausts lawful partners garbles first small enough evaluates
      | @portion ending _ evaluatorAfter portion inStepAfter =>
          obtain ⟨messages, _, _, together, carries, partnersAfter⟩ :=
            portion.together lawful partners continuous.toAlike Garbler.close Evaluator.close
          have sends : 0 < messages.length :=
            List.length_pos_of_ne_nil (carries.ne_nil (List.cons_ne_nil _ _))
          cases ending with
          | time =>
              refine (inductionHypothesis partnersAfter colored inStepAfter
                fun _ _ _ duet => duets _ _ _ (.time portion duet)).after
                (continuous.joint_again together agree_close_time) ?_
              rw [List.append_nil]
              omega
          | restart =>
              by_cases few : evaluatorAfter.processor.log.takeOpenings.1.length < UInt64.size
              · refine (inductionHypothesis (partnersAfter.resumed _) colored
                  (inStepAfter.resumed _)
                  fun _ _ _ duet => duets _ _ _ (.restart portion few duet)).after
                  (continuous.joint_again together (agree_close_restart portion.opens few)) ?_
                rw [List.append_nil]
                omega
              · exact continuous.prospect_of_close_restart together portion.opens
                  (Nat.le_of_not_lt few)
          | done =>
              by_cases few : evaluatorAfter.processor.log.takeOpenings.1.length < UInt64.size
              · exact .of_settled
                  (continuous.joint_finish together (agree_close_done portion.opens few))
                  (.ended (duets _ _ _ (.done portion few)))
              · exact continuous.prospect_of_close_done overflows together portion.opens
                  (Nat.le_of_not_lt few)

/-- From the start of a run any number of messages can be foreseen, unless one of the parties fails
or they play a duet to its end. -/
theorem prospect_entering (lawful : suite.Lawful)
    (continuous : Continuous garblerTask evaluatorTask)
    {agreed : Run.Outcome → Run.Outcome → Prop}
    (overflows : ∀ error outputs, UInt64.size ≤ outputs.revealed.length →
      agreed (.error error) (.ok outputs))
    {garblerGenerator : suite.Generator}
    (duets : ∀ drafts revealed outputs,
      Duet.Whole garblerTask evaluatorTask garblerGenerator drafts revealed outputs →
      agreed (.ok { revealed }) (.ok { revealed, evaluatorOnly := outputs }))
    (evaluatorGenerator : suite.Generator) (steps : Nat) :
    (Run.parties suite usable garblerTask evaluatorTask).Prospect agreed steps
      (.running (Garbler.rounds garblerTask (.entering garblerGenerator)))
      (.running (Evaluator.rounds usable evaluatorTask (.entering evaluatorGenerator))) := by
  obtain ⟨message, garblerTransfer, evaluatorTransfer, rest, partners, enters⟩ :=
    agree_enter lawful garblerGenerator evaluatorGenerator
  have inStep : Machine.InStep (Garbler.drawnOffset garblerGenerator)
      (Garbler.entered garblerTask (Garbler.drawnOffset garblerGenerator) garblerTransfer
        (Garbler.enteredGenerator garblerGenerator)).machine
      (Evaluator.entered evaluatorTask evaluatorTransfer).machine := by
    rw [Evaluator.entered, ← continuous.program]
    exact .start _ ⟨rfl, rfl⟩
  refine Parties.Prospect.after (continuous.prospect_slicing lawful overflows steps
    (partners garblerTask evaluatorTask) (Garbler.colored_drawnOffset garblerGenerator) inStep
    fun drafts revealed outputs duet => ?_) (continuous.joint_enter (enters continuous.toAlike))
    (Nat.le_add_left _ _)
  rw [Evaluator.entered, ← continuous.program] at duet
  exact duets drafts revealed outputs duet

/-- If both parties succeed then they have played a duet. -/
theorem duet_of_becomes (lawful : suite.Lawful) (continuous : Continuous garblerTask evaluatorTask)
    {garblerGenerator evaluatorGenerator : suite.Generator}
    {final : Network (Garbler.Phase suite) Run.Outcome (Evaluator.Phase suite) Run.Outcome}
    (becomes : Network.Becomes (Run.parties suite usable garblerTask evaluatorTask)
      (Run.start suite usable garblerTask evaluatorTask garblerGenerator evaluatorGenerator) final)
    {first second : Outputs} (garbler : final.garbler = .ended (.ok first))
    (evaluator : final.evaluator = .ended (.ok second)) :
    ∃ drafts revealed outputs,
      Duet.Whole garblerTask evaluatorTask garblerGenerator drafts revealed outputs ∧
        first = { revealed } ∧ second = { revealed, evaluatorOnly := outputs } := by
  let agreed (garbler evaluator : Run.Outcome) : Prop :=
    ∀ first second, garbler = .ok first → evaluator = .ok second →
      ∃ drafts revealed outputs,
        Duet.Whole garblerTask evaluatorTask garblerGenerator drafts revealed outputs ∧
          first = { revealed } ∧ second = { revealed, evaluatorOnly := outputs }
  have played : agreed (.ok first) (.ok second) := by
    refine becomes.agree (fun steps => ?_) (fun _ _ _ _ impossible => nomatch impossible) garbler
      evaluator
    refine (continuous.prospect_entering lawful (fun _ _ _ _ _ impossible => nomatch impossible)
      (fun drafts revealed outputs duet first second garbles evaluates => ?_) evaluatorGenerator
      (steps + 1)).foreseen
    cases garbles
    cases evaluates
    exact ⟨drafts, revealed, outputs, duet, rfl, rfl⟩
  exact played first second rfl rfl

end Continuous

end Garbling
