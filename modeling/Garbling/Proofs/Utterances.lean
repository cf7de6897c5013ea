import Mathlib
import Garbling.Proofs.Batches
import Garbling.Proofs.Visits

/-!
# What a party has sent by a certain time

A session can be looked at after any of its exchanges, whether it will succeed or not. What it has
sent by then follows from what its parts have sent: all of a part that has succeeded, and what the
part that is going on has sent so far.
-/

namespace Garbling

variable {σ τ α β : Type}

/-- The messages that were sent in the course of some exchanges. -/
def Exchange.outgoing (exchanges : List Exchange) : List Bytes :=
  exchanges.filterMap fun
    | .sent message (.ok ()) => some message
    | _ => none

theorem Exchange.outgoing_append (first rest : List Exchange) :
    outgoing (first ++ rest) = outgoing first ++ outgoing rest :=
  List.filterMap_append

theorem Exchange.outgoing_out (messages : List Bytes) :
    outgoing (messages.map Exchange.out) = messages := by
  rw [outgoing, List.filterMap_map]
  exact List.filterMap_some

theorem Event.sent_exchanged (exchanges : List Exchange) :
    Event.sent (exchanges.map Event.exchanged : List (Event σ)) = Exchange.outgoing exchanges := by
  rw [Event.sent, List.filterMap_map]
  apply List.filterMap_congr
  intro exchange _
  rcases exchange with ⟨message, failure | _⟩ | outcome <;> rfl

theorem Event.sent_append (first rest : List (Event σ)) :
    Event.sent (first ++ rest) = Event.sent first ++ Event.sent rest :=
  List.filterMap_append

/-- A party has sent what it has sent in its rounds. -/
theorem Event.sent_ofVisited (visited : List (σ × List Exchange)) :
    Event.sent (ofVisited visited) = Exchange.outgoing (visited.flatMap Prod.snd) :=
  (filterMap_ofVisited _ (fun _ => rfl) rfl visited).trans (sent_exchanged _)

/-- Two processes, one after the other, have only come to the first one yet, or they have finished
it. -/
theorem Process.Reaches.of_bind {process : Process α} {next : α → Process β}
    {exchanges : List Exchange} {goal : Process β}
    (reaches : (process >>= next).Reaches exchanges goal) :
    (∃ middle, process.Reaches exchanges middle) ∨
      ∃ first rest value, exchanges = first ++ rest ∧ process.Follows first value ∧
        (next value).Reaches rest goal := by
  induction process generalizing exchanges with
  | done value => exact .inr ⟨[], exchanges, value, rfl, .refl, reaches⟩
  | send message others inductionHypothesis =>
      rw [send_bind] at reaches
      cases reaches with
      | refl => exact .inl ⟨_, .refl⟩
      | send reaches =>
          rcases inductionHypothesis _ reaches with
            ⟨middle, reaches⟩ | ⟨first, rest, value, rfl, follows, reaches⟩
          · exact .inl ⟨middle, .send reaches⟩
          · exact .inr ⟨_, rest, value, rfl, .send follows, reaches⟩
  | receive others inductionHypothesis =>
      rw [receive_bind] at reaches
      cases reaches with
      | refl => exact .inl ⟨_, .refl⟩
      | receive reaches =>
          rcases inductionHypothesis _ reaches with
            ⟨middle, reaches⟩ | ⟨first, rest, value, rfl, follows, reaches⟩
          · exact .inl ⟨middle, .receive reaches⟩
          · exact .inr ⟨_, rest, value, rfl, .receive follows, reaches⟩

namespace Session

variable {good : List Bytes → Prop} {state : σ}

/-- Whatever the session has sent by a certain time, it is good. -/
def Utters (good : List Bytes → Prop) (session : Session σ α) (state : σ) : Prop :=
  ∀ ⦃exchanges : List Exchange⦄ ⦃goal : Process (Except Error α × σ)⦄,
    (session state).Reaches exchanges goal → good (Exchange.outgoing exchanges)

/-- A session that is over at once has sent nothing. -/
theorem utters_done {session : Session σ α} {outcome : Except Error α × σ}
    (ended : session state = .done outcome) (nothing : good []) : session.Utters good state := by
  intro exchanges goal reaches
  rw [ended] at reaches
  cases reaches
  exact nothing

theorem utters_sendBytes (phase : Phase) {message : Bytes} (nothing : good [])
    (one : good [message]) : Utters good (sendBytes phase message : Session σ Unit) state := by
  intro exchanges goal reaches
  cases reaches with
  | refl => exact nothing
  | @send _ _ outcome _ _ reaches =>
      rcases outcome with failure | _
      · cases reaches
        exact nothing
      · cases reaches
        exact one

theorem utters_send (phase : Phase) (format : Format α) {value : α} (nothing : good [])
    (one : good [format.encode value]) :
    Utters good (send phase format value : Session σ Unit) state :=
  utters_sendBytes phase nothing one

theorem utters_receiveBytes (phase : Phase) (nothing : good []) :
    Utters good (receiveBytes phase : Session σ Bytes) state := by
  intro exchanges goal reaches
  cases reaches with
  | refl => exact nothing
  | @receive _ outcome _ _ reaches =>
      rcases outcome with failure | message <;> cases reaches <;> exact nothing

theorem Utters.bind {session : Session σ α} {next : α → Session σ β}
    (one : session.Utters good state)
    (others : ∀ ⦃first value middle⦄, session.Succeeds state first value middle →
      (next value).Utters (fun rest => good (Exchange.outgoing first ++ rest)) middle) :
    (session >>= next).Utters good state := by
  intro exchanges goal reaches
  rw [bind_apply] at reaches
  rcases reaches.of_bind with ⟨middle, reaches⟩ | ⟨first, rest, ⟨error | value, middle⟩, rfl,
    follows, reaches⟩
  · exact one reaches
  · cases reaches
    rw [List.append_nil]
    exact one follows
  · rw [Exchange.outgoing_append]
    exact others follows reaches

theorem Utters.mono {weaker : List Bytes → Prop} {session : Session σ α}
    (utters : session.Utters good state) (implies : ∀ sent, good sent → weaker sent) :
    session.Utters weaker state :=
  fun _ _ reaches => implies _ (utters reaches)

/-- What is sent when the session has succeeded is good as well. -/
theorem Utters.of_succeeds {session : Session σ α} {exchanges : List Exchange} {value : α}
    {final : σ} (utters : session.Utters good state)
    (succeeds : session.Succeeds state exchanges value final) : good (Exchange.outgoing exchanges) :=
  utters succeeds

theorem Utters.zoom {view : σ → τ} {update : τ → σ → σ} {session : Session τ α}
    (part : session.Utters good (view state)) :
    (Session.zoom view update session).Utters good state := by
  intro exchanges goal reaches
  rcases Process.Reaches.of_bind reaches with
    ⟨middle, reaches⟩ | ⟨first, rest, outcome, rfl, follows, reaches⟩
  · exact part reaches
  · cases reaches
    rw [List.append_nil]
    exact part follows

theorem Utters.of_nothing {session : Session σ α} (silent : session.Utters (· = []) state)
    (nothing : good []) : session.Utters good state := by
  intro exchanges goal reaches
  rw [silent reaches]
  exact nothing

/-- What is sent in the round that a session makes is what the session sends. -/
theorem Utters.of_toRound {γ φ : Type} {session : Session σ (Next γ Outputs)} {wrap : σ → γ → φ}
    {exchanges : List Exchange} {goal : Process (Next φ (Except Error Outputs))}
    (utters : session.Utters good state)
    (reaches : (session.toRound state wrap).Reaches exchanges goal) :
    good (Exchange.outgoing exchanges) := by
  rw [toRound_eq_bind] at reaches
  rcases reaches.of_bind with
    ⟨middle, reaches⟩ | ⟨first, rest, ⟨_ | _ | _, final⟩, rfl, follows, reaches⟩
  · exact utters reaches
  all_goals
    cases reaches
    rw [List.append_nil]
    exact utters follows

/-- Whatever happens, the session sends nothing. -/
def Mute (session : Session σ α) : Prop := ∀ state, session.Utters (· = []) state

theorem Mute.utters {session : Session σ α} (mute : session.Mute) (nothing : good []) :
    session.Utters good state :=
  (mute state).of_nothing nothing

theorem Mute.bind {session : Session σ α} {next : α → Session σ β} (one : session.Mute)
    (others : ∀ value, (next value).Mute) : (session >>= next).Mute := by
  intro state
  refine (one state).bind fun first value middle succeeds => ?_
  rw [one state succeeds]
  exact others value middle

/-- What follows a session may send nothing. -/
theorem Utters.then_mute {session : Session σ α} {next : α → Session σ β}
    (utters : session.Utters good state) (others : ∀ value, (next value).Mute) :
    (session >>= next).Utters good state := by
  refine utters.bind fun first value middle succeeds => (others value).utters ?_
  rw [List.append_nil]
  exact utters.of_succeeds succeeds

/-- What follows a session that sends nothing sends whatever is sent. -/
theorem Mute.then {session : Session σ α} {next : α → Session σ β} (mute : session.Mute)
    (nothing : good [])
    (others : ∀ ⦃first value middle⦄, session.Succeeds state first value middle →
      (next value).Utters good middle) : (session >>= next).Utters good state := by
  refine (mute.utters nothing).bind fun first value middle succeeds => ?_
  rw [mute state succeeds]
  exact others succeeds

theorem mute_pure (value : α) : (pure value : Session σ α).Mute := fun _ => utters_done rfl rfl

theorem mute_throw (error : Error) : (throw error : Session σ α).Mute :=
  fun _ => utters_done rfl rfl

theorem mute_get : (get : Session σ σ).Mute := fun _ => utters_done rfl rfl

theorem mute_set (next : σ) : (set next : Session σ PUnit).Mute := fun _ => utters_done rfl rfl

theorem mute_modify (change : σ → σ) : (modify change : Session σ PUnit).Mute :=
  fun _ => utters_done rfl rfl

theorem mute_modifyGet (change : σ → α × σ) : (modifyGet change : Session σ α).Mute :=
  fun _ => utters_done rfl rfl

theorem mute_allowed (outcome : Except Violation α) : (allowed outcome : Session σ α).Mute := by
  cases outcome with
  | error breach => exact mute_throw _
  | ok value => exact mute_pure value

theorem mute_receive (phase : Phase) (format : Format α) :
    (receive phase format : Session σ α).Mute := by
  refine Mute.bind (fun _ => utters_receiveBytes phase rfl) fun message => ?_
  split
  · exact mute_pure _
  · exact mute_throw _

theorem mute_receiveList (phase : Phase) (format : Format (List α)) (length : Nat) :
    (receiveList phase format length : Session σ (List α)).Mute := by
  refine (mute_receive phase format).bind fun values => ?_
  dsimp only
  split
  · exact (mute_throw _).bind fun (_ : PUnit) => mute_pure values
  · exact mute_pure values

end Session

namespace Transcript

/-- The beginning of a stream tells the beginning of what the stream tells. -/
theorem ofStream_append (messages more : List Bytes) :
    ofStream messages <+: ofStream (messages ++ more) := by
  induction messages using ofStream.induct with
  | case1 => exact List.nil_prefix
  | case2 =>
      cases more with
      | nil => exact List.prefix_rfl
      | cons gates rest =>
          cases rest with
          | nil => simp [ofStream]
          | cons masks rest => simp [ofStream]
  | case3 gates =>
      cases more with
      | nil => exact List.prefix_rfl
      | cons masks rest => simp [ofStream]
  | case4 gates masks rest inductionHypothesis => simpa [ofStream] using inductionHypothesis
  | case5 rest other inductionHypothesis =>
      have step (tail : List Bytes) :
          ofStream (List.replicate 8 0xFF :: tail) = .done :: ofStream tail := by
        rw [ofStream.eq_def]
        simp only [if_neg other, if_true]
      rw [List.cons_append, step, step]
      exact (List.prefix_cons_inj _).mpr inductionHypothesis
  | case6 message rest other otherToo inductionHypothesis =>
      have step (tail : List Bytes) :
          ofStream (message :: tail) = .labels message.length :: ofStream tail := by
        rw [ofStream.eq_def]
        simp only [if_neg other, if_neg otherToo]
      rw [List.cons_append, step, step]
      exact (List.prefix_cons_inj _).mpr inductionHypothesis

/-- A message of a party that has sent no more than two belongs to the setup. -/
theorem ofGarbler_setup {messages : List Bytes} (few : messages.length ≤ 2) :
    (ofGarbler messages).filter Entry.inStream = [] := by
  match messages, few with
  | [], _ => rfl
  | [_], _ => rfl
  | [_, _], _ => rfl

/-- Every message is longer than a tag. -/
def Long (messages : List Bytes) : Prop := ∀ message ∈ messages, 8 < message.length

/-- Messages that are longer than a tag tell neither a tag nor a batch. -/
theorem Long.carries {messages : List Bytes} (long : Long messages) : Carries messages [] := by
  induction messages with
  | nil => exact .nil
  | cons message rest inductionHypothesis =>
      obtain ⟨first, others⟩ := List.forall_mem_cons.mp long
      exact (carries_other first).append (inductionHypothesis others)

end Transcript

end Garbling
