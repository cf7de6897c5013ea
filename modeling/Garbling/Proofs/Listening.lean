import Mathlib
import Garbling.Proofs.Together
import Garbling.Role.Evaluator

/-!
# Who waits first

Some sessions do nothing before they wait for a message: the evaluator waits for every batch, and
the garbler waits for the columns before it serves inputs. A party that is there has not ended, and
cannot go on by itself.
-/

namespace Garbling

open Session

namespace Session

variable {σ τ α β γ φ : Type} {session : Session σ α} {state middle : σ} {value : α}

/-- The first thing that the session does is to wait for a message. -/
def Listens (session : Session σ α) (state : σ) : Prop :=
  ∃ waiting, session state = .receive waiting

theorem listens_receiveBytes (phase : Phase) (state : σ) :
    (receiveBytes phase : Session σ Bytes).Listens state := ⟨_, rfl⟩

theorem Listens.bind (listens : session.Listens state) {next : α → Session σ β} :
    (session >>= next).Listens state := by
  obtain ⟨waiting, same⟩ := listens
  exact ⟨_, by rw [bind_apply, same]; rfl⟩

/-- What a session does first is what follows a part that exchanges nothing. -/
theorem Listens.after (silent : session.Succeeds state [] value middle)
    {next : α → Session σ β} (listens : (next value).Listens middle) :
    (session >>= next).Listens state := by
  obtain ⟨waiting, same⟩ := listens
  exact ⟨waiting, by rw [bind_apply_of_succeeds silent, same]⟩

theorem Listens.zoom {view : σ → τ} {update : τ → σ → σ} {session : Session τ α}
    (listens : session.Listens (view state)) :
    (Session.zoom view update session).Listens state := by
  obtain ⟨waiting, same⟩ := listens
  exact ⟨_, by rw [Session.zoom, same]; rfl⟩

theorem Listens.toRound {session : Session σ (Next γ Outputs)} (listens : session.Listens state)
    (wrap : σ → γ → φ) : ∃ waiting, session.toRound state wrap = .receive waiting := by
  obtain ⟨waiting, same⟩ := listens
  exact ⟨_, by rw [toRound_eq_bind, same]; rfl⟩

end Session

variable {suite : Suite}

/-- To serve inputs the garbler waits for the columns of the evaluator first. -/
theorem LabelTransfer.listens_serve {transfer : LabelTransfer suite} {offset : Offset}
    {generators : List suite.Generator} (sender : transfer.extension = .sender offset generators)
    {zeroLabels : List Label} {rest : List (List Label)}
    (queued : transfer.queued = zeroLabels :: rest) : serve.Listens transfer := by
  apply Listens.after (succeeds_get transfer)
  rw [queued]
  apply Listens.after (succeeds_modify _ transfer)
  apply Listens.bind
  apply Listens.zoom
  rw [sender]
  apply Listens.after (succeeds_get _)
  exact (listens_receiveBytes _ _).bind.bind.bind

/-- To receive a batch the evaluator waits for its tag first. -/
theorem BatchStream.listens_receive {σ : Type} (state : σ) : receive.Listens state :=
  (listens_receiveBytes _ state).bind.bind

namespace Evaluator

variable (usable : String → Bool) (task : Task)

/-- The evaluator waits for a batch first in continuous mode. -/
theorem listens_evaluating (evaluator : Evaluator suite) :
    ∃ waiting, rounds usable task (.evaluating evaluator) = .receive waiting :=
  (BatchStream.listens_receive evaluator).bind.toRound _

/-- The evaluator waits for a batch first while it stores them. -/
theorem listens_storing (state : Buffering suite) :
    ∃ waiting, rounds usable task (.storing state) = .receive waiting :=
  (BatchStream.listens_receive state).bind.bind.toRound _

end Evaluator

end Garbling
