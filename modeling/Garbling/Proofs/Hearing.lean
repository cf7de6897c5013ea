import Mathlib
import Garbling.Proofs.ContinuousRun
import Garbling.Proofs.Fate
import Garbling.Proofs.Visits

/-!
# Who needs a message

Neither party can come to its outputs all alone. The garbler waits for the last openings before it
finishes, whatever the mode is, and the evaluator waits for batches. So a party that gets no
message any more does not succeed.
-/

namespace Garbling

namespace Next

variable {state result : Type}

/-- The round is the last one. -/
def Finished : Next state result → Prop
  | .again _ => False
  | .finish _ => True

end Next

namespace Session

variable {σ τ α β : Type} {wanted : α → Prop}

/-- If the session succeeds with a result of the wanted kind then it has received a message. -/
def Hears (wanted : α → Prop) (session : Session σ α) : Prop :=
  ∀ ⦃state final : σ⦄ ⦃exchanges : List Exchange⦄ ⦃value : α⦄,
    session.Succeeds state exchanges value final → wanted value →
      ∃ message, Exchange.into message ∈ exchanges

theorem hears_pure {value : α} (unwanted : ¬wanted value) :
    Hears wanted (pure value : Session σ α) := by
  intro state final exchanges result succeeds want
  obtain ⟨_, rfl, _⟩ := pure_succeeds.mp succeeds
  exact absurd want unwanted

theorem hears_throw (error : Error) : Hears wanted (throw error : Session σ α) :=
  fun _ _ _ _ succeeds => (throw_succeeds.mp succeeds).elim

theorem hears_receiveBytes (phase : Phase) {wanted : Bytes → Prop} :
    Hears wanted (receiveBytes phase : Session σ Bytes) := by
  intro state final exchanges message succeeds _
  obtain ⟨rfl, _⟩ := receiveBytes_succeeds.mp succeeds
  exact ⟨message, .head _⟩

theorem hears_receive (phase : Phase) (format : Format α) :
    Hears wanted (receive phase format : Session σ α) := by
  intro state final exchanges value succeeds _
  obtain ⟨message, _, _, rfl, _⟩ := receive_succeeds.mp succeeds
  exact ⟨message, .head _⟩

/-- A session that begins with one that receives a message receives one. -/
theorem Hears.bind {session : Session σ α} {next : α → Session σ β} {wanted : β → Prop}
    (first : session.Hears fun _ => True) : Hears wanted (session >>= next) := by
  intro state final exchanges value succeeds _
  obtain ⟨_, rest, _, _, rfl, one, _⟩ := bind_succeeds.mp succeeds
  obtain ⟨message, member⟩ := first one trivial
  exact ⟨message, List.mem_append_left rest member⟩

/-- A session that goes on with one that receives a message receives one. -/
theorem hears_bind (session : Session σ α) {next : α → Session σ β} {wanted : β → Prop}
    (rest : ∀ value, Hears wanted (next value)) : Hears wanted (session >>= next) := by
  intro state final exchanges value succeeds want
  obtain ⟨first, _, middle, _, rfl, _, two⟩ := bind_succeeds.mp succeeds
  obtain ⟨message, member⟩ := rest middle two want
  exact ⟨message, List.mem_append_right first member⟩

variable {γ φ : Type} {session : Session τ (Next γ Outputs)}
  {rounds : Rounds φ (Except Error Outputs)}

/-- If a session receives a message before it finishes, and leads to rounds in which the party needs
one, then the party needs one in its round. -/
theorem Hears.needsMessage (hears : session.Hears Next.Finished) (state : τ)
    {wrap : τ → γ → φ}
    (again : ∀ final phase, (Activity.running (rounds (wrap final phase))).NeedsMessage rounds) :
    (Activity.running (session.toRound state wrap)).NeedsMessage rounds := by
  intro events outputs follows
  obtain ⟨exchanges, rest, rfl, ends⟩ := toRound_to_outputs follows
  rcases ends with ⟨final, succeeds⟩ | ⟨phase, final, more, _, rfl, others⟩
  · obtain ⟨message, member⟩ := hears succeeds trivial
    exact ⟨message, List.mem_append_left _ (List.mem_map_of_mem member)⟩
  · obtain ⟨message, member⟩ := again final phase more outputs others
    exact ⟨message, List.mem_append_right _ (.tail _ member)⟩

/-- If a session receives a message in any case, then the party needs one in its round. -/
theorem Hears.needsMessage_first (hears : session.Hears fun _ => True) (state : τ)
    (wrap : τ → γ → φ) :
    (Activity.running (session.toRound state wrap)).NeedsMessage rounds := by
  intro events outputs follows
  obtain ⟨exchanges, rest, rfl, ends⟩ := toRound_to_outputs follows
  obtain ⟨message, member⟩ : ∃ message, Exchange.into message ∈ exchanges := by
    rcases ends with ⟨_, succeeds⟩ | ⟨_, _, _, succeeds, _⟩ <;> exact hears succeeds trivial
  exact ⟨message, List.mem_append_left _ (List.mem_map_of_mem member)⟩

end Session

open Session

variable {suite : Suite} {usable : String → Bool}

theorem hears_handshake {σ : Type} (typed : Mode) (settings : Settings) :
    Hears (fun _ => True) (handshake typed settings : Session σ Unit) := by
  unfold handshake
  split
  · exact hears_throw _
  · exact hears_bind _ fun _ => (hears_receive _ _).bind

theorem BatchStream.hears_receive {σ : Type} {wanted : Option BatchPair → Prop} :
    Hears wanted (receive : Session σ _) :=
  ((hears_receiveBytes _).bind).bind

namespace Garbler

variable {task : Task}

theorem hears_receiveOpenings {wanted : Unit → Prop} :
    Hears wanted (receiveOpenings : Session (Garbler suite) Unit) :=
  (hears_receive _ _).bind

/-- Whatever the garbler does at the end of a slice, it waits for openings before it finishes. -/
theorem hears_close (ending : Break) :
    Hears Next.Finished (close ending : Session (Garbler suite) _) := by
  cases ending with
  | restart => exact hears_bind _ fun _ => hears_receiveOpenings.bind
  | time => exact hears_pure id
  | done => exact hears_bind _ fun _ => hears_receiveOpenings.bind

theorem hears_slice (task : Task) :
    Hears Next.Finished (slice task : Session (Garbler suite) _) := by
  unfold slice
  cases task.typed with
  | continuous =>
      rw [sliceContinuous_eq]
      exact hears_bind _ fun ending => hears_bind _ fun _ => hears_bind _ fun _ => hears_close ending
  | buffered =>
      refine hears_bind _ fun ending => ?_
      cases ending with
      | restart => exact hears_throw _
      | time => exact hears_bind _ fun _ => hears_pure id
      | done =>
          exact hears_bind _ fun _ => hears_bind _ fun _ => hears_bind _ fun _ =>
            hears_receiveOpenings.bind

/-- The garbler needs a message before its first slice and before any other one. -/
theorem needsMessage_slicing (task : Task) (garbler : Garbler suite) :
    (Activity.running (rounds task (.slicing garbler))).NeedsMessage (rounds task) := by
  intro events outputs follows
  induction size : events.length using Nat.strong_induction_on generalizing garbler events with
  | _ size inductionHypothesis =>
      subst size
      obtain ⟨exchanges, rest, rfl, ends⟩ := toRound_to_outputs follows
      rcases ends with ⟨final, succeeds⟩ | ⟨phase, final, more, _, rfl, others⟩
      · obtain ⟨message, member⟩ := hears_slice task succeeds trivial
        exact ⟨message, List.mem_append_left _ (List.mem_map_of_mem member)⟩
      · obtain ⟨message, member⟩ :=
          inductionHypothesis more.length (by simp; omega) final more others rfl
        exact ⟨message, List.mem_append_right _ (.tail _ member)⟩

/-- The garbler needs a message in a round in which it waits for openings before it finishes. -/
theorem needsMessage_roundOf (task : Task) (garbler : Garbler suite)
    {session : Session (Garbler suite) (Next Unit Outputs)}
    (hears : session.Hears Next.Finished) :
    (Activity.running (garbler.roundOf session)).NeedsMessage (rounds task) :=
  hears.needsMessage garbler fun final _ => needsMessage_slicing task final

/-- The garbler needs a message at its start. -/
theorem needsMessage_entering (task : Task) (generator : suite.Generator) :
    (Activity.running (rounds task (.entering generator))).NeedsMessage (rounds task) :=
  Hears.needsMessage_first (((hears_handshake _ _).bind).bind) _ _

end Garbler

namespace Evaluator

/-- The evaluator needs a message at its start. -/
theorem needsMessage_entering (task : Task) (generator : suite.Generator) :
    (Activity.running (rounds usable task (.entering generator))).NeedsMessage
      (rounds usable task) :=
  Hears.needsMessage_first (((hears_handshake _ _).bind).bind) _ _

/-- The evaluator needs a message before a batch in continuous mode. -/
theorem needsMessage_evaluating (task : Task) (evaluator : Evaluator suite) :
    (Activity.running (rounds usable task (.evaluating evaluator))).NeedsMessage
      (rounds usable task) :=
  Hears.needsMessage_first (BatchStream.hears_receive.bind) _ _

/-- The evaluator needs a message while it stores batches. -/
theorem needsMessage_storing (task : Task) (state : Buffering suite) :
    (Activity.running (rounds usable task (.storing state))).NeedsMessage (rounds usable task) :=
  Hears.needsMessage_first ((BatchStream.hears_receive.bind).bind) _ _

end Evaluator

end Garbling
