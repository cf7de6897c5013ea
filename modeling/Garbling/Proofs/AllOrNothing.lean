import Mathlib
import Garbling.Proofs.BufferedFate
import Garbling.Proofs.ContinuousFate
import Garbling.Proofs.ModesAgree

/-!
# All or nothing

Parties that do not agree on valid settings fail before they exchange anything else. Parties that do
fail in a slice, or come to an agreement. So whatever the settings and the inputs are, it cannot
happen that one party succeeds and the other one fails or learns other values.
-/

namespace Garbling

open Session

variable {suite : Suite} {usable : String → Bool} {σ : Type}

section

variable {task other : Task} {error : SettingsError}

/-- A party whose settings are not valid announces nothing. -/
theorem handshake_fails (invalid : task.settings.checkFor task.typed = .error error) (state : σ) :
    (handshake task.typed task.settings).Fails state [] (.settings error) state := by
  rw [handshake, invalid]
  exact fails_throw _ state

/-- A party that receives an announcement unlike its own one fails. -/
theorem handshake_differs (valid : task.settings.checkFor task.typed = .ok ())
    (differs : other.typed ≠ task.typed ∨ other.settings.timeSlice ≠ task.settings.timeSlice)
    (state : σ) :
    ∃ error, (handshake task.typed task.settings).Fails state
      [.out task.announcement, .into other.announcement] error state := by
  have judged := handshake_judges valid other state
  rw [Task.verdict] at judged
  split_ifs at judged with mode slice
  · exact ⟨_, judged⟩
  · exact ⟨_, judged⟩
  · exact (differs.elim mode slice).elim

end

/-- A party whose session fails makes its last round. -/
theorem Session.Fails.toRound {γ φ : Type} {session : Session σ (Next γ Outputs)} {state final : σ}
    {exchanges : List Exchange} {error : Error} (fails : session.Fails state exchanges error final)
    (wrap : σ → γ → φ) :
    (session.toRound state wrap).Follows exchanges (.finish (.error error)) := by
  rw [toRound_eq_bind, ← List.append_nil exchanges]
  exact (Process.Reaches.bind fails _).trans .refl

section

variable {task : Task} {exchanges : List Exchange} {error : Error}

/-- A garbler that fails in the handshake ends with its first round. -/
theorem Garbler.entering_fails {generator : suite.Generator}
    {after : LabelTransfer suite × suite.Generator}
    (fails : (handshake task.typed task.settings).Fails ({}, generator) exchanges error after) :
    (Garbler.rounds task (.entering generator)).Follows exchanges (.finish (.error error)) := by
  rw [Garbler.rounds]
  exact Session.Fails.toRound fails.bind.bind _

/-- An evaluator that fails in the handshake ends with its first round. -/
theorem Evaluator.entering_fails {generator : suite.Generator}
    {after : LabelTransfer suite × suite.Generator}
    (fails : (handshake task.typed task.settings).Fails ({}, generator) exchanges error after) :
    (Evaluator.rounds usable task (.entering generator)).Follows exchanges
      (.finish (.error error)) := by
  rw [Evaluator.rounds]
  exact Session.Fails.toRound fails.bind.bind _

end

namespace Run

variable {garblerTask evaluatorTask : Task} {agreed : Outcome → Outcome → Prop} {steps : Nat}
  (garblerGenerator evaluatorGenerator : suite.Generator)

/-- The garbler fails at once if its settings are not valid. -/
theorem prospect_of_garbler_invalid {error : SettingsError}
    (invalid : garblerTask.settings.checkFor garblerTask.typed = .error error) :
    (parties suite usable garblerTask evaluatorTask).Prospect agreed steps
      (.running (Garbler.rounds garblerTask (.entering garblerGenerator)))
      (.running (Evaluator.rounds usable evaluatorTask (.entering evaluatorGenerator))) := by
  have ends : (Garbler.rounds garblerTask (.entering garblerGenerator)).Follows [] _ :=
    Garbler.entering_fails (handshake_fails invalid _)
  exact .of_settled
    ((Parties.Joint.of_together ⟨[], [], ends, .refl, .nil⟩).trans (Parties.Joint.garbler_ends _))
    (.garblerFails _ (Evaluator.needsMessage_entering evaluatorTask evaluatorGenerator))

/-- The evaluator fails at once if its settings are not valid. -/
theorem prospect_of_evaluator_invalid {error : SettingsError}
    (invalid : evaluatorTask.settings.checkFor evaluatorTask.typed = .error error) :
    (parties suite usable garblerTask evaluatorTask).Prospect agreed steps
      (.running (Garbler.rounds garblerTask (.entering garblerGenerator)))
      (.running (Evaluator.rounds usable evaluatorTask (.entering evaluatorGenerator))) := by
  have ends : (Evaluator.rounds usable evaluatorTask (.entering evaluatorGenerator)).Follows [] _ :=
    Evaluator.entering_fails (handshake_fails invalid _)
  exact .of_settled
    ((Parties.Joint.of_together ⟨[], [], .refl, ends, .nil⟩).trans (Parties.Joint.evaluator_ends _))
    (.evaluatorFails _ (Garbler.needsMessage_entering garblerTask garblerGenerator))

/-- Both parties fail if their announcements differ. -/
theorem prospect_of_differs
    (garblerValid : garblerTask.settings.checkFor garblerTask.typed = .ok ())
    (evaluatorValid : evaluatorTask.settings.checkFor evaluatorTask.typed = .ok ())
    (differs : evaluatorTask.typed ≠ garblerTask.typed ∨
      evaluatorTask.settings.timeSlice ≠ garblerTask.settings.timeSlice) :
    (parties suite usable garblerTask evaluatorTask).Prospect agreed steps
      (.running (Garbler.rounds garblerTask (.entering garblerGenerator)))
      (.running (Evaluator.rounds usable evaluatorTask (.entering evaluatorGenerator))) := by
  obtain ⟨garblerError, garblerFails⟩ := handshake_differs garblerValid differs
    (({}, garblerGenerator) : LabelTransfer suite × suite.Generator)
  obtain ⟨evaluatorError, evaluatorFails⟩ := handshake_differs evaluatorValid
    (differs.imp Ne.symm Ne.symm) (({}, evaluatorGenerator) : LabelTransfer suite × suite.Generator)
  have together : Process.Together (Garbler.rounds garblerTask (.entering garblerGenerator))
      (Evaluator.rounds usable evaluatorTask (.entering evaluatorGenerator))
      [garblerTask.announcement] (.done (.finish (.error garblerError)))
      (.done (.finish (.error evaluatorError))) :=
    ⟨_, _, Garbler.entering_fails garblerFails, Evaluator.entering_fails evaluatorFails,
      .crossing garblerTask.announcement evaluatorTask.announcement⟩
  exact .of_settled ((Parties.Joint.of_together together).trans
      ((Parties.Joint.garbler_ends _).trans (Parties.Joint.evaluator_ends _)))
    (.garblerFails _ (Activity.needsMessage_of_error _ _))

/-- What the outcomes of both parties have to do with each other: both fail, or both learn the same
values. The garbler also fails if the values cannot be counted by a word. -/
def Agreed : Outcome → Outcome → Prop
  | .ok first, .ok second => second.revealed = first.revealed
  | .ok _, .error _ => False
  | .error _, .ok second => UInt64.size ≤ second.revealed.length
  | .error _, .error _ => True

/-- From the start of a run any number of messages can be foreseen, unless one of the parties fails
or they come to an agreement. -/
theorem prospect (lawful : suite.Lawful) (program : garblerTask.program = evaluatorTask.program) :
    (parties suite usable garblerTask evaluatorTask).Prospect Agreed steps
      (.running (Garbler.rounds garblerTask (.entering garblerGenerator)))
      (.running (Evaluator.rounds usable evaluatorTask (.entering evaluatorGenerator))) := by
  cases garblerValid : garblerTask.settings.checkFor garblerTask.typed with
  | error error =>
      exact prospect_of_garbler_invalid garblerGenerator evaluatorGenerator garblerValid
  | ok valid =>
      cases evaluatorValid : evaluatorTask.settings.checkFor evaluatorTask.typed with
      | error error =>
          exact prospect_of_evaluator_invalid garblerGenerator evaluatorGenerator evaluatorValid
      | ok valid =>
          by_cases differs : evaluatorTask.typed ≠ garblerTask.typed ∨
            evaluatorTask.settings.timeSlice ≠ garblerTask.settings.timeSlice
          · exact prospect_of_differs garblerGenerator evaluatorGenerator garblerValid
              evaluatorValid differs
          · simp only [not_or, not_not] at differs
            have alike : Alike garblerTask evaluatorTask :=
              ⟨differs.1.symm, program, differs.2.symm, garblerValid, evaluatorValid⟩
            cases mode : garblerTask.typed with
            | continuous =>
                exact Continuous.prospect_entering lawful ⟨alike, mode⟩ (fun _ _ many => many)
                  (fun _ _ _ _ => rfl) evaluatorGenerator steps
            | buffered =>
                exact Buffered.prospect_entering lawful ⟨alike, mode⟩ (fun _ _ many => many)
                  (fun _ _ _ _ => rfl) evaluatorGenerator steps

/-- Parties that run the same program succeed together. Whatever their inputs and settings are, and
whatever becomes of the run, if one of them has succeeded then the other one has not failed, and has
learned the same values if it has ended. On a machine the length of a list is a word, which is why
the length of the evaluator's values is bounded. -/
theorem all_or_nothing (lawful : suite.Lawful) {garblerTask evaluatorTask : Task}
    (program : garblerTask.program = evaluatorTask.program)
    {garblerGenerator evaluatorGenerator : suite.Generator}
    {final : Network (Garbler.Phase suite) Outcome (Evaluator.Phase suite) Outcome}
    (becomes : Network.Becomes (parties suite usable garblerTask evaluatorTask)
      (start suite usable garblerTask evaluatorTask garblerGenerator evaluatorGenerator) final) :
    (∀ outputs, final.garbler = .ended (.ok outputs) →
      ∀ outcome, final.evaluator = .ended outcome →
        ∃ others, outcome = .ok others ∧ others.revealed = outputs.revealed) ∧
    ∀ outputs, final.evaluator = .ended (.ok outputs) → outputs.revealed.length < UInt64.size →
      ∀ outcome, final.garbler = .ended outcome →
        ∃ others, outcome = .ok others ∧ others.revealed = outputs.revealed := by
  have agreed {first second : Outcome} (garbler : final.garbler = .ended first)
      (evaluator : final.evaluator = .ended second) : Agreed first second :=
    becomes.agree (fun _ => (prospect _ _ lawful program).foreseen) (fun _ _ => trivial) garbler
      evaluator
  constructor
  · intro outputs garbler outcome evaluator
    cases outcome with
    | error error => exact (agreed garbler evaluator).elim
    | ok others => exact ⟨others, rfl, agreed garbler evaluator⟩
  · intro outputs evaluator few outcome garbler
    cases outcome with
    | error error => exact absurd few (Nat.not_lt_of_le (agreed garbler evaluator))
    | ok others => exact ⟨others, rfl, (agreed garbler evaluator).symm⟩

/-- Parties with a set bit each learn that both have one, or neither of them succeeds. -/
theorem product_all_or_nothing :
    let suite := Suite.exponents
    let usable : String → Bool := fun _ => true
    let generator : suite.Generator := ChaCha20.Generator.ofSeed []
    let task := Task.ofProduct .continuous
    suite.Lawful ∧ task.program = task.program ∧
      ∃ final,
        Network.Becomes (parties suite usable task task)
          (start suite usable task task generator generator) final ∧
        final.garbler = .ended (.ok { revealed := [1] }) ∧
        final.evaluator = .ended (.ok { revealed := [1] }) ∧
        (∀ outcome, final.evaluator = .ended outcome →
          ∃ others, outcome = .ok others ∧ others.revealed = [1]) ∧
        ∀ outcome, final.garbler = .ended outcome →
          ∃ others, outcome = .ok others ∧ others.revealed = [1] := by
  intro suite usable generator task
  have lawful : suite.Lawful := Suite.exponents_lawful
  obtain ⟨_, _, final, run, garbler, evaluator, _⟩ :=
    exists_run lawful .ofProduct generator generator Reference.finishes_product (by decide)
      (by decide)
  obtain ⟨ofGarbler, ofEvaluator⟩ := all_or_nothing lawful rfl run.becomes
  exact ⟨lawful, rfl, final, run.becomes, garbler, evaluator, ofGarbler _ garbler,
    ofEvaluator _ evaluator (by decide)⟩

end Run

end Garbling
