import Mathlib
import Garbling.Proofs.Trace

/-!
# However a session ends

A session can fail at any of its messages. What can be said of all its ends, whatever comes of the
messages, follows from what can be said of the ends of its parts.
-/

namespace Garbling

namespace Process

variable {α β : Type}

/-- It makes no difference how a process would go on after results that it never comes to. -/
theorem bind_congr {process : Process α} {first second : α → Process β}
    (same : ∀ exchanges value, process.Follows exchanges value → first value = second value) :
    (process >>= first) = (process >>= second) := by
  induction process with
  | done value => exact same [] value .refl
  | send message others inductionHypothesis =>
      rw [send_bind, send_bind]
      refine congrArg (Process.send message) (funext fun outcome => ?_)
      exact inductionHypothesis outcome fun exchanges value follows => same _ value (.send follows)
  | receive others inductionHypothesis =>
      rw [receive_bind, receive_bind]
      refine congrArg Process.receive (funext fun outcome => ?_)
      exact inductionHypothesis outcome fun exchanges value follows =>
        same _ value (.receive follows)

end Process

namespace Session

variable {α β σ τ : Type} {session : Session σ α} {next : α → Session σ β} {state : σ}

/-- However the session ends, the outcome and the state after it are as wanted. -/
def Ensures (wanted : Except Error α → σ → Prop) (session : Session σ α) (state : σ) : Prop :=
  ∀ ⦃exchanges : List Exchange⦄ ⦃outcome : Except Error α⦄ ⦃final : σ⦄,
    (session state).Follows exchanges (outcome, final) → wanted outcome final

theorem ensures_of_done {wanted : Except Error α → σ → Prop} {outcome : Except Error α} {final : σ}
    (ends : session state = .done (outcome, final)) (holds : wanted outcome final) :
    session.Ensures wanted state := by
  intro exchanges found after follows
  rw [ends] at follows
  obtain ⟨_, same⟩ := Process.done_follows.mp follows
  cases same
  exact holds

theorem Ensures.mono {wanted weaker : Except Error α → σ → Prop}
    (ensures : session.Ensures wanted state)
    (implies : ∀ outcome final, wanted outcome final → weaker outcome final) :
    session.Ensures weaker state :=
  fun _ _ _ follows => implies _ _ (ensures follows)

/-- A session ends where its first part fails, or else where the rest of it ends. -/
theorem Ensures.bind {wanted : Except Error β → σ → Prop}
    (first : session.Ensures (fun outcome middle =>
      match outcome with
      | .ok value => (next value).Ensures wanted middle
      | .error error => wanted (.error error) middle) state) :
    (session >>= next).Ensures wanted state := by
  intro exchanges outcome final follows
  rw [bind_apply] at follows
  obtain ⟨_, _, ⟨error | value, middle⟩, _, one, two⟩ := Process.bind_follows.mp follows
  · obtain ⟨_, same⟩ := Process.done_follows.mp two
    cases same
    exact first one
  · exact first one two

theorem Ensures.zoom {view : σ → τ} {update : τ → σ → σ} {part : Session τ α}
    {wanted : Except Error α → σ → Prop}
    (ensures : part.Ensures (fun outcome after => wanted outcome (update after state))
      (view state)) : (Session.zoom view update part).Ensures wanted state := by
  intro exchanges outcome final follows
  obtain ⟨_, _, ⟨found, after⟩, _, one, two⟩ := Process.bind_follows.mp follows
  obtain ⟨_, same⟩ := Process.done_follows.mp two
  cases same
  exact ensures one

/-- However the session ends, it keeps a property of the state. -/
def Keeps (kept : σ → Prop) (session : Session σ α) : Prop :=
  ∀ ⦃state : σ⦄, kept state → session.Ensures (fun _ final => kept final) state

variable {kept : σ → Prop}

theorem keeps_pure (value : α) : (pure value : Session σ α).Keeps kept :=
  fun _ holds => ensures_of_done rfl holds

theorem keeps_throw (error : Error) : (throw error : Session σ α).Keeps kept :=
  fun _ holds => ensures_of_done rfl holds

theorem keeps_allowed (outcome : Except Violation α) :
    (allowed outcome : Session σ α).Keeps kept := by
  cases outcome with
  | ok value => exact keeps_pure value
  | error breach => exact keeps_throw _

theorem keeps_set {next : σ} (holds : kept next) : (set next : Session σ PUnit).Keeps kept :=
  fun _ _ => ensures_of_done rfl holds

theorem keeps_modifyGet {change : σ → α × σ} (keeps : ∀ state, kept state → kept (change state).2) :
    (modifyGet change : Session σ α).Keeps kept :=
  fun state holds => ensures_of_done rfl (keeps state holds)

theorem keeps_modify {change : σ → σ} (keeps : ∀ state, kept state → kept (change state)) :
    (modify change : Session σ PUnit).Keeps kept :=
  keeps_modifyGet keeps

theorem Keeps.bind (first : session.Keeps kept) (rest : ∀ value, (next value).Keeps kept) :
    (session >>= next).Keeps kept := by
  intro state holds
  refine Ensures.bind ((first holds).mono fun outcome middle held => ?_)
  cases outcome with
  | ok value => exact rest value held
  | error error => exact held

/-- A session that begins by looking at its state. -/
theorem keeps_get_bind {next : σ → Session σ α}
    (rest : ∀ state, kept state → (next state).Ensures (fun _ final => kept final) state) :
    (get >>= next).Keeps kept :=
  fun state holds => Ensures.bind (ensures_of_done rfl (rest state holds))

theorem Keeps.zoom {view : σ → τ} {update : τ → σ → σ} {part : Session τ α} {partKept : τ → Prop}
    (keeps : part.Keeps partKept) (views : ∀ state, kept state → partKept (view state))
    (updates : ∀ state after, kept state → partKept after → kept (update after state)) :
    (Session.zoom view update part).Keeps kept :=
  fun state holds => Ensures.zoom <|
    (keeps (views state holds)).mono fun _ after held => updates state after holds held

theorem keeps_sendBytes (phase : Phase) (message : Bytes) :
    (sendBytes phase message : Session σ Unit).Keeps kept := by
  intro state holds exchanges outcome final follows
  obtain ⟨_ | _, _, _, others⟩ := Process.send_follows.mp follows
  all_goals
    obtain ⟨_, same⟩ := Process.done_follows.mp others
    cases same
    exact holds

theorem keeps_receiveBytes (phase : Phase) :
    (receiveBytes phase : Session σ Bytes).Keeps kept := by
  intro state holds exchanges outcome final follows
  obtain ⟨_ | _, _, _, others⟩ := Process.receive_follows.mp follows
  all_goals
    obtain ⟨_, same⟩ := Process.done_follows.mp others
    cases same
    exact holds

theorem keeps_send (phase : Phase) (format : Format α) (value : α) :
    (send phase format value : Session σ Unit).Keeps kept :=
  keeps_sendBytes phase _

theorem keeps_receive (phase : Phase) (format : Format α) :
    (receive phase format : Session σ α).Keeps kept := by
  refine Keeps.bind (keeps_receiveBytes phase) fun message => ?_
  split
  · exact keeps_pure _
  · exact keeps_throw _

theorem keeps_receiveList (phase : Phase) (format : Format (List α)) (length : Nat) :
    (receiveList phase format length : Session σ (List α)).Keeps kept := by
  refine Keeps.bind (keeps_receive phase format) fun values => ?_
  split
  · exact Keeps.bind (keeps_throw _) fun _ => keeps_pure _
  · exact keeps_pure values

end Session

end Garbling
