import Mathlib
import Garbling.Proofs.InputLabels
import Garbling.Role.Evaluator
import Garbling.Role.Garbler

/-!
# The setup of a run

Parties with the same settings agree on them, and then set up the transfer of labels. After
that they are partners: their transfers are linked, nothing is queued, and they wait for the
same batch. Both machines are at the start of the program.
-/

namespace Garbling

open Session

variable {suite : Suite} {σ τ : Type}

/-- The tasks of both parties for the same run. -/
structure Alike (garbler evaluator : Task) : Prop where
  typed : garbler.typed = evaluator.typed
  program : garbler.program = evaluator.program
  timeSlice : garbler.settings.timeSlice = evaluator.settings.timeSlice
  garblerValid : garbler.settings.checkFor garbler.typed = .ok ()
  evaluatorValid : evaluator.settings.checkFor evaluator.typed = .ok ()

/-- Valid settings have slices of at least one instruction. -/
theorem Settings.timeSlice_pos {settings : Settings} {typed : Mode}
    (valid : settings.checkFor typed = .ok ()) : 0 < settings.timeSlice.toNat := by
  by_contra none
  have zero : settings.timeSlice = 0 := UInt64.toNat_inj.mp (Nat.eq_zero_of_not_pos none)
  simp [checkFor, validate, zero] at valid
  cases valid

/-- The announcement of a party. -/
def Task.announcement (task : Task) : Bytes :=
  Layout.fixed.handshake.encode (task.typed, task.settings.timeSlice)

/-- What a party with valid settings makes of the announcement of another one. -/
def Task.verdict (task other : Task) : Except Error Unit :=
  if other.typed ≠ task.typed then
    .error (.settings (.modeMismatch task.typed other.typed))
  else if other.settings.timeSlice ≠ task.settings.timeSlice then
    .error (.settings (.timeSliceMismatch task.settings.timeSlice other.settings.timeSlice))
  else .ok ()

/-- A party with valid settings announces them, waits for those of the other one, and judges
them. -/
theorem handshake_judges {task : Task} (valid : task.settings.checkFor task.typed = .ok ())
    (other : Task) (state : σ) :
    (handshake task.typed task.settings state).Follows
      [.out task.announcement, .into other.announcement] (task.verdict other, state) := by
  have sent : (send .handshake Layout.fixed.handshake
      (task.typed, task.settings.timeSlice)).Succeeds state [.out task.announcement] () state :=
    succeeds_send _ _ _ state
  have received : (receive .handshake Layout.fixed.handshake : Session σ _).Succeeds state
      [.into other.announcement] (other.typed, other.settings.timeSlice) state :=
    receive_succeeds.mpr ⟨_, [], (Layout.sound_fixed.handshake _).decode, rfl, rfl⟩
  rw [handshake, valid, Task.verdict]
  by_cases mode : other.typed = task.typed
  · by_cases slice : other.settings.timeSlice = task.settings.timeSlice
    · rw [if_neg (not_not_intro mode), if_neg (not_not_intro slice)]
      refine Succeeds.bind sent (Succeeds.bind received ?_)
      simp only [mode, slice, ne_eq, not_true, if_false]
      exact succeeds_pure _ state
    · rw [if_neg (not_not_intro mode), if_pos slice]
      refine sent.fails (received.fails ?_)
      simp only [mode, ne_eq, not_true, if_false, slice, not_false_eq_true, if_true]
      exact fails_throw _ state
  · rw [if_pos mode]
    refine sent.fails (received.fails ?_)
    simp only [ne_eq, mode, not_false_eq_true, if_true]
    exact (fails_throw _ state).bind

/-- A party whose own settings are announced to it agrees. -/
theorem handshake_succeeds {task other : Task}
    (valid : task.settings.checkFor task.typed = .ok ()) (typed : other.typed = task.typed)
    (timeSlice : other.settings.timeSlice = task.settings.timeSlice) (state : σ) :
    (handshake task.typed task.settings).Succeeds state
      [.out task.announcement, .into other.announcement] () state := by
  have judged := handshake_judges valid other state
  rwa [Task.verdict, if_neg (not_not_intro typed), if_neg (not_not_intro timeSlice)] at judged

/-- The announcements of both parties cross each other. -/
theorem Alike.agree_handshake {garblerTask evaluatorTask : Task}
    (alike : Alike garblerTask evaluatorTask) (garbler : σ) (evaluator : τ) :
    Agree (handshake garblerTask.typed garblerTask.settings)
      (handshake evaluatorTask.typed evaluatorTask.settings) garbler evaluator
      [garblerTask.announcement] ((), garbler) ((), evaluator) :=
  agree_of_succeeds
    (handshake_succeeds alike.garblerValid alike.typed.symm alike.timeSlice.symm garbler)
    (handshake_succeeds alike.evaluatorValid alike.typed alike.timeSlice evaluator) (.crossing _ _)

/-- The parties between two slices: their transfers are linked, nothing is queued, and they wait
for the same batch. -/
structure Partners (garbler : Garbler suite) (evaluator : Evaluator suite) : Prop where
  linked : LabelTransfer.Linked garbler.offset garbler.transfer evaluator.transfer
  served : garbler.transfer.queued = []
  number : garbler.nextBatch = evaluator.nextBatch

/-- The garbler after its setup. -/
def Garbler.entered (task : Task) (offset : Offset) (transfer : LabelTransfer suite)
    (generator : suite.Generator) : Garbler suite :=
  { offset, transfer, machine := .start task.program { generator, inputs := task.inputs } }

/-- The evaluator after its setup. -/
def Evaluator.entered (task : Task) (transfer : LabelTransfer suite) : Evaluator suite :=
  { transfer, machine := .start task.program {}, inputs := task.inputs }

/-- The offset that the garbler draws at first. -/
def Garbler.drawnOffset (generator : suite.Generator) : Offset := (suite.offset generator).1

/-- The generator of the garbler after its setup. -/
def Garbler.enteredGenerator (generator : suite.Generator) : suite.Generator :=
  BaseTransfer.afterScalars suite columnCount (suite.offset generator).2

/-- What the parties come to in their setup, whatever their tasks are: they are partners, and the
garbler has sent the given message after its announcement. -/
structure Entrance (garblerGenerator evaluatorGenerator : suite.Generator) (message : Bytes)
    (garblerTransfer evaluatorTransfer : LabelTransfer suite) (rest : suite.Generator) : Prop where
  partners (garblerTask evaluatorTask : Task) :
    Partners
      (Garbler.entered garblerTask (Garbler.drawnOffset garblerGenerator) garblerTransfer
        (Garbler.enteredGenerator garblerGenerator))
      (Evaluator.entered evaluatorTask evaluatorTransfer)
  enters {garblerTask evaluatorTask : Task} (alike : Alike garblerTask evaluatorTask) :
    Agree (Garbler.enter garblerTask) (Evaluator.enter evaluatorTask) ({}, garblerGenerator)
      ({}, evaluatorGenerator) [garblerTask.announcement, message]
      (Garbler.entered garblerTask (Garbler.drawnOffset garblerGenerator) garblerTransfer
          (Garbler.enteredGenerator garblerGenerator),
        (garblerTransfer, Garbler.enteredGenerator garblerGenerator))
      (Evaluator.entered evaluatorTask evaluatorTransfer, (evaluatorTransfer, rest))

/-- The setup makes partners. What they come to depends on their generators only. -/
theorem agree_enter (lawful : suite.Lawful) (garblerGenerator evaluatorGenerator : suite.Generator) :
    ∃ message garblerTransfer evaluatorTransfer rest,
      Entrance garblerGenerator evaluatorGenerator message garblerTransfer evaluatorTransfer
        rest := by
  obtain ⟨message, garblerTransfer, evaluatorTransfer, evaluatorAfter, agree, linked, served⟩ :=
    LabelTransfer.agree_setup lawful (Garbler.drawnOffset garblerGenerator)
      (suite.offset garblerGenerator).2 evaluatorGenerator
  refine ⟨message, garblerTransfer, evaluatorTransfer, evaluatorAfter,
    fun _ _ => ⟨linked, served, rfl⟩, fun alike => ?_⟩
  have announced := alike.agree_handshake
    (({}, garblerGenerator) : LabelTransfer suite × suite.Generator)
    (({}, evaluatorGenerator) : LabelTransfer suite × suite.Generator)
  apply announced.bind
  apply Agree.bind_garbler (succeeds_modifyGet _ _)
  refine Agree.garbler_then (Agree.evaluator_then agree ?_) ?_
  · apply Succeeds.bind (succeeds_get _)
    exact succeeds_pure _ _
  · apply Succeeds.bind (succeeds_get _)
    exact succeeds_pure _ _

/-- The offset that the garbler draws colors its labels. -/
theorem Garbler.colored_drawnOffset (generator : suite.Generator) :
    (Garbler.drawnOffset generator).Colored :=
  Offset.colored_colored _

end Garbling
