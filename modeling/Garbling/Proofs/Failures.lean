import Mathlib
import Garbling.Proofs.ContinuousSlice
import Garbling.Role.Run

/-!
# How parties fail

A party may fail in a slice, the evaluator may lack inputs or run out of masks, and the garbler
refuses openings that cannot be counted by a word.
-/

namespace Garbling

open Session

variable {suite : Suite} {α γ δ : Type}

/-- A garbler that fails in a slice sends nothing. -/
theorem Garbler.executeSlice_fails {task : Task} {garbler : Garbler suite} {error : Error}
    {machine : Machine Label (GarblingState suite)}
    (garbles : Machine.execute (GarblingState.backend suite garbler.offset) task.program
      task.settings.timeSlice.toNat garbler.machine = (.error error, machine)) :
    (executeSlice task).Fails garbler [] error { garbler with machine } := by
  simp only [Fails, executeSlice, garbles]
  exact .refl

/-- A garbler that fails in a slice ends with it, whatever the mode is. -/
theorem Garbler.joint_fails {usable : String → Bool} {garblerTask evaluatorTask : Task}
    {garbler : Garbler suite} {error : Error} {machine : Machine Label (GarblingState suite)}
    (garbles : Machine.execute (GarblingState.backend suite garbler.offset) garblerTask.program
      garblerTask.settings.timeSlice.toNat garbler.machine = (.error error, machine))
    (evaluator : Activity (Evaluator.Phase suite) Run.Outcome) :
    (Run.parties suite usable garblerTask evaluatorTask).Joint
      (.running (rounds garblerTask (.slicing garbler))) evaluator [] [] (.ended (.error error))
      evaluator := by
  have fails : (slice garblerTask).Fails garbler [] error { garbler with machine } := by
    unfold slice
    cases garblerTask.typed <;> exact (executeSlice_fails garbles).bind
  exact fails.garbler_ends evaluator

/-- The garbler refuses openings of which there are not as many as there are values that are not
open. -/
theorem Garbler.receiveOpenings_fails {garbler : Garbler suite} {message rest : Bytes}
    {values : List UInt64} (decoded : Layout.fixed.openings.decode message = .ok (values, rest))
    (count : values.length ≠ garbler.machine.processor.log.pending) :
    receiveOpenings.Fails garbler [.into message] (.violation
      (.openingCountMismatch garbler.machine.processor.log.pending values.length)) garbler := by
  have received : (receive .openings Layout.fixed.openings : Session (Garbler suite) _).Succeeds
      garbler [.into message] values garbler :=
    receive_succeeds.mpr ⟨message, rest, decoded, rfl, rfl⟩
  have refused : garbler.machine.processor.applyOpenings values =
      .error (.openingCountMismatch garbler.machine.processor.log.pending values.length) := by
    rw [Processor.applyOpenings, RevealLog.applyOpenings, if_neg count]
    rfl
  exact received.fails ((succeeds_get garbler).fails (fails_allowed refused garbler).bind)

namespace Evaluator

variable {task : Task} {evaluator : Evaluator suite} {error : Error}

/-- An evaluator that fails in a slice sends nothing. -/
theorem executeSlice_fails {machine : Machine Label EvaluationState}
    (evaluates : Machine.execute (EvaluationState.backend suite.pad) task.program
      task.settings.timeSlice.toNat evaluator.machine = (.error error, machine)) :
    (executeSlice task).Fails evaluator [] error { evaluator with machine } := by
  simp only [Fails, executeSlice, evaluates]
  exact .refl

/-- An evaluator that lacks inputs fails before it exchanges anything. -/
theorem receiveInputLabels_fails {count : Nat} (small : count < UInt64.size)
    (missing : evaluator.inputs.length < count) :
    (receiveInputLabels (UInt64.ofNat count)).Fails evaluator []
      (.execution .missingEvaluatorInput) evaluator := by
  have same : (UInt64.ofNat count).toNat = count := UInt64.toNat_ofNat_of_lt' small
  have positive : UInt64.ofNat count ≠ 0 := by
    intro nothing
    rw [nothing] at same
    exact absurd missing (by simp [← same])
  rw [receiveInputLabels, if_neg positive]
  apply Fails.bind
  refine (succeeds_get evaluator).fails ?_
  rw [if_pos (same.symm ▸ missing)]
  exact (fails_throw _ _).bind

/-- An evaluator that runs out of masks fails after it has received the labels of its inputs. -/
theorem onLabels_fails {draft : Draft} {number : UInt64} {labels : List Label}
    {machine : Machine Label EvaluationState} (expected : number = evaluator.nextBatch)
    (first : draft.firstGate = evaluator.machine.backend.gateCount) (small : draft.Small)
    (count : labels.length = draft.evaluatorInputs.size)
    (evaluates : Machine.execute (EvaluationState.backend suite.pad) task.program
      task.settings.timeSlice.toNat (evaluator.machine.loaded (draft.reader labels)) =
        (.error error, machine)) (next : Break → Session (Evaluator suite) α) :
    ∃ after, (onLabels task next (draft.batch number) labels).Fails evaluator [] error after :=
  ⟨_, (load_draft expected first small count).fails (executeSlice_fails evaluates).bind⟩

end Evaluator

section

variable {garbler : Garbler suite} {evaluator : Evaluator suite}

/-- Openings that cannot be counted by a word are refused by the garbler. -/
theorem together_refused
    (opens : garbler.machine.processor.log.applyOpenings
      evaluator.machine.processor.log.takeOpenings.1 = .ok evaluator.machine.processor.log.opening)
    (many : UInt64.size ≤ evaluator.machine.processor.log.takeOpenings.1.length)
    (garblerNext : Unit → Session (Garbler suite) γ)
    (evaluatorNext : Unit → Session (Evaluator suite) δ) :
    ∃ error, Process.Together ((Garbler.receiveOpenings >>= garblerNext) garbler)
      ((Evaluator.sendOpenings >>= evaluatorNext) evaluator) [] (.done (.error error, garbler))
      (evaluatorNext () (evaluator.opened evaluator.machine.processor.log.opening)) := by
  have expected : evaluator.machine.processor.log.takeOpenings.1.length =
      garbler.machine.processor.log.pending := by
    rw [RevealLog.applyOpenings] at opens
    split at opens
    · assumption
    · cases opens
  let message := Layout.fixed.openings.encode evaluator.machine.processor.log.takeOpenings.1
  have sent : Evaluator.sendOpenings.Succeeds evaluator [.out message] ()
      (evaluator.opened evaluator.machine.processor.log.opening) :=
    Succeeds.bind (succeeds_modifyGet _ evaluator) (succeeds_send _ _ _ _)
  obtain ⟨error, refused⟩ : ∃ error,
      Garbler.receiveOpenings.Fails garbler [.into message] error garbler := by
    cases decoded : Layout.fixed.openings.decode message with
    | error fault => exact ⟨_, (fails_receive decoded garbler).bind⟩
    | ok found =>
        obtain ⟨values, rest⟩ := found
        have fewer : values.length ≠ garbler.machine.processor.log.pending := by
          have bound := Layout.list_length_lt decoded
          omega
        exact ⟨_, Garbler.receiveOpenings_fails decoded fewer⟩
  refine ⟨error, [.into message], [.out message], ?_, ?_, .fromEvaluator message⟩
  · exact refused.bind
  · rw [bind_apply]
    exact Process.Reaches.bind sent _

/-- The evaluator opens the last values and reports, but they cannot be counted by a word. -/
theorem together_conclude_refused
    (opens : garbler.machine.processor.log.applyOpenings
      evaluator.machine.processor.log.takeOpenings.1 = .ok evaluator.machine.processor.log.opening)
    (many : UInt64.size ≤ evaluator.machine.processor.log.takeOpenings.1.length)
    (garblerNext : Unit → Session (Garbler suite) γ) :
    ∃ error, Process.Together ((Garbler.receiveOpenings >>= garblerNext) garbler)
      (Evaluator.conclude evaluator) [] (.done (.error error, garbler))
      (.done (.ok
        { revealed := evaluator.machine.processor.log.opening.revealed
          evaluatorOnly := evaluator.machine.backend.outputs.toList },
        evaluator.opened evaluator.machine.processor.log.opening)) :=
  together_refused opens many garblerNext fun _ => (do
    let machine := (← get).machine
    return { revealed := machine.processor.log.revealed
             evaluatorOnly := machine.backend.outputs.toList } : Session (Evaluator suite) Outputs)

end

/-- All openings are revealed. -/
theorem RevealLog.length_takeOpenings_le (log : RevealLog) :
    log.takeOpenings.1.length ≤ log.opening.revealed.length := by
  rw [RevealLog.revealed_opening]
  exact ((List.drop_sublist _ _).filterMap id).length_le

/-- What carries something is not empty. -/
theorem Transcript.Carries.ne_nil {messages : List Bytes} {entries : List Entry}
    (carries : Transcript.Carries messages entries) (some : entries ≠ []) : messages ≠ [] := by
  rintro rfl
  exact some carries.ofStream.symm

end Garbling
