import Mathlib
import Garbling.Proofs.Course

/-!
# What passes in a run

In a run each party goes through its own events, and receives, in order, what the other one has
sent.
-/

namespace Garbling

/-- No message has failed. -/
def Exchange.Succeeded : Exchange → Prop
  | .sent _ (.error _) | .received (.error _) => False
  | _ => True

/-- No message has failed. -/
def Event.Succeeded {state : Type} : Event state → Prop
  | .exchanged exchange => exchange.Succeeded
  | _ => True

/-- The messages that a party has sent in the course of some events. -/
def Event.sent {state : Type} (events : List (Event state)) : List Bytes :=
  events.filterMap Event.sent?

/-- The messages that a party has received in the course of some events. -/
def Event.received {state : Type} (events : List (Event state)) : List Bytes :=
  events.filterMap Event.received?

theorem Event.sent_cons {state : Type} (event : Event state) (rest : List (Event state)) :
    Event.sent (event :: rest) = event.sent?.toList ++ Event.sent rest := by
  cases found : event.sent? <;> simp [Event.sent, found]

theorem Event.received_cons {state : Type} (event : Event state) (rest : List (Event state)) :
    Event.received (event :: rest) = event.received?.toList ++ Event.received rest := by
  cases found : event.received? <;> simp [Event.received, found]

/-- What an event does to the queues: a message that is sent joins the one, and a message that is
received leaves the other. -/
theorem Connection.Admits.queues {connection after : Connection} {role : Role} {closing : Bool}
    {σ : Type} {event : Event σ} (admits : connection.Admits role closing event after) :
    after.sent role = connection.sent role ++ event.sent?.toList ∧
      connection.sent role.peer = event.received?.toList ++ after.sent role.peer := by
  cases admits with
  | began => simp [Event.sent?, Event.received?]
  | ended => cases closing <;> simp [Event.sent?, Event.received?]
  | sent sent =>
      rcases Connection.send_eq_some_iff.mp sent with ⟨_, rfl, rfl⟩ | ⟨_, _, rfl, rfl⟩
      · simp [Event.sent?, Event.received?]
      · simp [Event.sent?, Event.received?]
  | received received =>
      rcases Connection.receive_eq_some_iff.mp received with
        ⟨message, rest, queue, rfl, rfl⟩ | ⟨_, _, rfl, rfl⟩
      · simp [Event.sent?, Event.received?, queue]
      · simp [Event.sent?, Event.received?]

namespace Network

variable {σ α τ β : Type} {parties : Parties σ α τ β} {network final : Network σ α τ β}
  {garbler : List (Event σ)} {evaluator : List (Event τ)}

/-- In a run each party goes through its own events. -/
theorem Run.follows (run : Run parties network garbler evaluator final) :
    network.garbler.Follows parties.garbler garbler final.garbler ∧
      network.evaluator.Follows parties.evaluator evaluator final.evaluator := by
  induction run with
  | refl => exact ⟨.refl, .refl⟩
  | garbler step acts admits rest inductionHypothesis =>
      refine ⟨.step acts inductionHypothesis.1, ?_⟩
      obtain ⟨_, _, rfl⟩ := Option.map_eq_some_iff.mp step
      exact inductionHypothesis.2
  | evaluator step acts admits rest inductionHypothesis =>
      refine ⟨?_, .step acts inductionHypothesis.2⟩
      obtain ⟨_, _, rfl⟩ := Option.map_eq_some_iff.mp step
      exact inductionHypothesis.1

/-- In a run each party receives what the other one sends, in order. -/
theorem Run.delivers (run : Run parties network garbler evaluator final) :
    network.connection.fromGarbler ++ Event.sent garbler =
        Event.received evaluator ++ final.connection.fromGarbler ∧
      network.connection.fromEvaluator ++ Event.sent evaluator =
        Event.received garbler ++ final.connection.fromEvaluator := by
  induction run with
  | refl => exact ⟨List.append_nil _, List.append_nil _⟩
  | garbler step acts admits rest inductionHypothesis =>
      obtain ⟨joins, leaves⟩ := admits.queues
      constructor
      · rw [Event.sent_cons, ← List.append_assoc, ← inductionHypothesis.1]
        exact congrArg (· ++ _) joins.symm
      · rw [Event.received_cons, List.append_assoc, ← inductionHypothesis.2, ← List.append_assoc]
        exact congrArg (· ++ _) leaves
  | evaluator step acts admits rest inductionHypothesis =>
      obtain ⟨joins, leaves⟩ := admits.queues
      constructor
      · rw [Event.received_cons, List.append_assoc, ← inductionHypothesis.1, ← List.append_assoc]
        exact congrArg (· ++ _) leaves
      · rw [Event.sent_cons, ← List.append_assoc, ← inductionHypothesis.2]
        exact congrArg (· ++ _) joins.symm

end Network

namespace Activity

variable {σ α : Type} {rounds : Rounds σ α} {start middle : Activity σ α} {event : Event σ}

/-- A party has no choice where nothing is exchanged. -/
theorem Acts.of_silent (silent : event.Silent) (acts : start.Acts rounds event middle)
    {head : Event σ} {next : Activity σ α} (other : start.Acts rounds head next) :
    head = event ∧ next = middle := by
  cases acts with
  | began =>
      cases other
      exact ⟨rfl, rfl⟩
  | ended =>
      cases other
      exact ⟨rfl, rfl⟩
  | sent => exact silent.elim
  | received => exact silent.elim

end Activity

end Garbling
