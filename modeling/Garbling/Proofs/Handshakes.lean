import Mathlib
import Garbling.Proofs.AllOrNothing
import Garbling.Proofs.Framing
import Garbling.Proofs.HangingUp

/-!
# Handshakes

Two parties make their handshakes on one connection, on which each message is a chunk, and a party
that fails hangs up. Whatever order they take their steps in, they both succeed or they both fail,
and they succeed exactly if their settings are valid and agree. If the settings are valid but differ
then each party tells the difference, with the settings of both. A party whose settings are not
valid says nothing.
-/

namespace Garbling

open Session

namespace Task

/-- The settings have slices, and the mode that the role is made for. -/
structure Valid (task : Task) : Prop where
  timeSlice : task.settings.timeSlice ≠ 0
  mode : task.settings.mode = task.typed

variable {task : Task}

/-- Settings are valid exactly if they pass the check of the role. -/
theorem valid_iff : task.Valid ↔ task.settings.checkFor task.typed = .ok () := by
  rw [Settings.checkFor, Settings.validate]
  by_cases zero : task.settings.timeSlice = 0
  · rw [if_pos zero]
    refine ⟨fun valid => absurd zero valid.timeSlice, fun passes => ?_⟩
    cases passes
  · rw [if_neg zero]
    by_cases mode : task.settings.mode = task.typed
    · simp only [mode, ne_eq, not_true, if_false]
      exact ⟨fun _ => rfl, fun _ => ⟨zero, mode⟩⟩
    · simp only [ne_eq, mode, not_false_eq_true, if_true]
      refine ⟨fun valid => absurd valid.mode mode, fun passes => ?_⟩
      cases passes

/-- The handshake of a party. -/
def handshake (task : Task) : Process (Except Error Unit) :=
  Prod.fst <$> Garbling.handshake task.typed task.settings ()

/-- A party whose settings are not valid fails at once. -/
theorem handshake_of_invalid (invalid : ¬task.Valid) :
    ∃ error, task.handshake = .done (.error error) := by
  cases checked : task.settings.checkFor task.typed with
  | ok valid => exact absurd (valid_iff.mpr checked) invalid
  | error error =>
      refine ⟨.settings error, ?_⟩
      rw [handshake, (handshake_fails checked ()).eq_of_nil]
      rfl

/-- A party with valid settings judges those of the other one. -/
theorem handshake_follows (valid : task.Valid) (other : Task) :
    task.handshake.Follows [.out task.announcement, .into other.announcement]
      (task.verdict other) :=
  Process.Reaches.bind (handshake_judges (valid_iff.mp valid) other ()) (.done ·.1)

theorem announcement_short (task : Task) : task.announcement.length ≤ chunkSize := by
  have length : task.announcement.length = 12 := by
    rw [announcement, Layout.handshake, Format.pair, List.length_append]
    cases task.typed <;>
      simp only [Layout.mode, Layout.fixed, Layout.ofNumbers, Format.map, Format.number,
        Bytes.length_ofNat]
  rw [length]
  decide

/-- A party does not succeed in its handshake unless it receives a message. -/
theorem handshake_deprived (task : Task) :
    (Next.finish <$> task.handshake : Process (Next Unit (Except Error Unit))).Deprived := by
  rw [handshake, Garbling.handshake]
  cases task.settings.checkFor task.typed with
  | error error => exact .failed
  | ok valid =>
      refine .send fun outcome => ?_
      cases outcome with
      | error failure => exact .failed
      | ok sent => exact .receive fun failure => .failed

end Task

/-- Two parties that make their handshakes, with their messages in chunks. -/
def handshakes (garbler evaluator : Task) :
    Parties (Assembling Unit (Except Error Unit)) (Except Error Unit)
      (Assembling Unit (Except Error Unit)) (Except Error Unit) :=
  .onceInChunks garbler.handshake evaluator.handshake false

namespace Handshakes

/-- Two parties in the middle of their handshakes. -/
abbrev Meeting :=
  Network (Assembling Unit (Except Error Unit)) (Except Error Unit)
    (Assembling Unit (Except Error Unit)) (Except Error Unit)

/-- Two parties before their handshakes, on a connection that has not been used. -/
def start (garbler evaluator : Task) : Meeting :=
  .start (handshakes garbler evaluator) (.round ()) (.round ()) {}

variable {garbler evaluator : Task}

/-- A party whose settings are not valid is about to fail. -/
theorem garbler_of_invalid (invalid : ¬garbler.Valid) (evaluator : Task) :
    ∃ error, (start garbler evaluator).garbler = .running (.done (.finish (.error error))) := by
  obtain ⟨error, fails⟩ := garbler.handshake_of_invalid invalid
  refine ⟨error, ?_⟩
  change Activity.running (Next.finish <$> garbler.handshake).inChunks = _
  rw [fails]
  rfl

/-- Parties with valid settings come to their verdicts. -/
theorem settles_of_valid (garblerValid : garbler.Valid) (evaluatorValid : evaluator.Valid) :
    (start garbler evaluator).Settles (handshakes garbler evaluator) (fun _ => True)
      fun network => network.garbler = .ended (garbler.verdict evaluator) ∧
        network.evaluator = .ended (evaluator.verdict garbler) := by
  have short {task other : Task} : ∀ exchange ∈ [Exchange.out task.announcement,
      Exchange.into other.announcement], exchange.Short := by
    intro exchange member
    rcases List.mem_pair.mp member with rfl | rfl
    · exact task.announcement_short
    · exact other.announcement_short
  have joint := Parties.onceInChunks_joint (garbler.handshake_follows garblerValid evaluator)
    (evaluator.handshake_follows evaluatorValid garbler) (.crossing _ _) short short false
  obtain ⟨_, _, course, _, _⟩ := joint.on_course
  exact course.settles

/-- If the settings of the garbler are not valid then both parties fail. -/
theorem settles_of_garbler_invalid (invalid : ¬garbler.Valid) (evaluator : Task) :
    (start garbler evaluator).Settles (handshakes garbler evaluator) (fun _ => True)
      Network.BothFailed := by
  obtain ⟨error, fails⟩ := garbler_of_invalid invalid evaluator
  have begins : start garbler evaluator =
      ⟨{}, (start garbler evaluator).garbler, (start garbler evaluator).evaluator⟩ := rfl
  rw [begins, fails]
  exact Network.settles_of_failing evaluator.handshake_deprived.inChunks rfl

/-- If the settings of the evaluator are not valid then both parties fail. -/
theorem settles_of_evaluator_invalid (garbler : Task) (invalid : ¬evaluator.Valid) :
    (start garbler evaluator).Settles (handshakes garbler evaluator) (fun _ => True)
      Network.BothFailed := by
  have swapped : (start garbler evaluator).swap.Settles (handshakes garbler evaluator).swap
      (fun _ => True) Network.BothFailed := settles_of_garbler_invalid invalid garbler
  exact swapped.swap.mono (fun _ _ => trivial) fun _ failed => failed.symm

/-- A party whose settings are not valid says nothing. -/
def Quiet (garbler evaluator : Task) (network : Meeting) : Prop :=
  (¬garbler.Valid → network.connection.sent .garbler = []) ∧
    (¬evaluator.Valid → network.connection.sent .evaluator = [])

/-- What comes of the handshake of a party with another one: it succeeds exactly if the settings of
both are valid and agree. If they are valid then a difference is told, that of the modes first. -/
structure Concluded (task other : Task) (outcome : Except Error Unit) : Prop where
  succeeds_iff : outcome = .ok () ↔ task.Valid ∧ other.Valid ∧ task.typed = other.typed ∧
    task.settings.timeSlice = other.settings.timeSlice
  modes : task.Valid → other.Valid → task.typed ≠ other.typed →
    outcome = .error (.settings (.modeMismatch task.typed other.typed))
  timeSlices : task.Valid → other.Valid → task.typed = other.typed →
    task.settings.timeSlice ≠ other.settings.timeSlice →
      outcome = .error (.settings
        (.timeSliceMismatch task.settings.timeSlice other.settings.timeSlice))

/-- A verdict concludes the handshake of parties with valid settings. -/
theorem concluded_verdict {task other : Task} (valid : task.Valid) (otherValid : other.Valid) :
    Concluded task other (task.verdict other) where
  succeeds_iff := by
    rw [Task.verdict]
    constructor
    · intro success
      split_ifs at success with mode slice
      exact ⟨valid, otherValid, (not_not.mp mode).symm, (not_not.mp slice).symm⟩
    · rintro ⟨_, _, mode, slice⟩
      rw [if_neg (not_not_intro mode.symm), if_neg (not_not_intro slice.symm)]
  modes _ _ differ := by rw [Task.verdict, if_pos differ.symm]
  timeSlices _ _ same differ := by
    rw [Task.verdict, if_neg (not_not_intro same.symm), if_pos differ.symm]

/-- A failure concludes the handshake of parties whose settings are not both valid. -/
theorem concluded_error {task other : Task} (invalid : ¬(task.Valid ∧ other.Valid))
    (error : Error) : Concluded task other (.error error) where
  succeeds_iff := by
    constructor
    · intro success
      cases success
    · rintro ⟨valid, otherValid, _⟩
      exact absurd ⟨valid, otherValid⟩ invalid
  modes valid otherValid := absurd ⟨valid, otherValid⟩ invalid
  timeSlices valid otherValid := absurd ⟨valid, otherValid⟩ invalid

/-- Both parties have ended, and their handshakes are concluded. -/
def BothConcluded (garbler evaluator : Task) (network : Meeting) : Prop :=
  ∃ first second, network.garbler = .ended first ∧ network.evaluator = .ended second ∧
    Concluded garbler evaluator first ∧ Concluded evaluator garbler second

theorem settles (garbler evaluator : Task) :
    (start garbler evaluator).Settles (handshakes garbler evaluator) (fun _ => True)
      (BothConcluded garbler evaluator) := by
  have ofInvalid (invalid : ¬(garbler.Valid ∧ evaluator.Valid)) (network : Meeting)
      (failed : network.BothFailed) : BothConcluded garbler evaluator network := by
    obtain ⟨⟨first, garblerEnded⟩, ⟨second, evaluatorEnded⟩⟩ := failed
    exact ⟨_, _, garblerEnded, evaluatorEnded, concluded_error invalid first,
      concluded_error (fun valid => invalid valid.symm) second⟩
  by_cases garblerValid : garbler.Valid
  · by_cases evaluatorValid : evaluator.Valid
    · exact (settles_of_valid garblerValid evaluatorValid).mono (fun _ _ => trivial)
        fun network ended => ⟨_, _, ended.1, ended.2, concluded_verdict garblerValid evaluatorValid,
          concluded_verdict evaluatorValid garblerValid⟩
    · exact (settles_of_evaluator_invalid garbler evaluatorValid).mono (fun _ _ => trivial)
        (ofInvalid fun valid => evaluatorValid valid.2)
  · exact (settles_of_garbler_invalid garblerValid evaluator).mono (fun _ _ => trivial)
      (ofInvalid fun valid => garblerValid valid.1)

/-- A party whose settings are not valid sends nothing any more and has sent nothing. -/
def Mute (garbler evaluator : Task) (network : Meeting) : Prop :=
  (¬garbler.Valid → network.GarblerMute) ∧ (¬evaluator.Valid → network.swap.GarblerMute)

theorem mute_start (garbler evaluator : Task) :
    Mute garbler evaluator (start garbler evaluator) := by
  constructor
  · intro invalid
    obtain ⟨error, fails⟩ := garbler_of_invalid invalid evaluator
    exact ⟨⟨_, .inl fails⟩, rfl⟩
  · intro invalid
    obtain ⟨error, fails⟩ := garbler_of_invalid invalid garbler
    exact ⟨⟨_, .inl fails⟩, rfl⟩

theorem Mute.quiet {network : Meeting} (mute : Mute garbler evaluator network) :
    Quiet garbler evaluator network :=
  ⟨fun invalid => (mute.1 invalid).2, fun invalid => (mute.2 invalid).2⟩

/-- Whatever order of steps two parties take in their handshakes, a party that fails hanging up, they
go on until both have ended. Then both have succeeded if the settings of both are valid and agree,
and otherwise both have failed; if the settings are valid then each party tells the same difference.
A party whose settings are not valid has nothing on its way at any time. Neither party has to wait
until its time is over, since some party can take a step until both have ended. -/
theorem handshakes_agree (garbler evaluator : Task) :
    (start garbler evaluator).Settles (handshakes garbler evaluator) (Quiet garbler evaluator)
      fun network => BothConcluded garbler evaluator network ∧ Quiet garbler evaluator network := by
  have kept := (settles garbler evaluator).keeping (mute_start garbler evaluator)
    fun network role next mute moves =>
      ⟨fun invalid => (mute.1 invalid).of_moves moves,
        fun invalid => (mute.2 invalid).of_moves moves.swap⟩
  exact kept.mono (fun network both => both.2.quiet) fun network both => ⟨both.1, both.2.quiet⟩

end Handshakes

end Garbling
