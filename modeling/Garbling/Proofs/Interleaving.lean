import Mathlib
import Garbling.Network.Schedule
import Garbling.Proofs.Trace

/-!
# Interleavings

What each party goes through determines a run, not the order in which the parties take their
steps. If there is one order in which the messages of both parties fit together, then every
order of steps goes on until both parties are through, and a queue that is full or empty only
makes a party wait for the other one.
-/

namespace Garbling

/-- What a party goes through in one step. -/
inductive Event (state : Type) where
  | exchanged (exchange : Exchange)
  /-- A round begins in the given state. -/
  | began (state : state)
  /-- The party ends. -/
  | ended

namespace Event

variable {state : Type}

/-- A message that was sent. -/
abbrev out (message : Bytes) : Event state := .exchanged (.out message)

/-- A message that was received. -/
abbrev into (message : Bytes) : Event state := .exchanged (.into message)

/-- The message that was sent, if it was. -/
def sent? : Event state → Option Bytes
  | .exchanged (.sent message (.ok ())) => some message
  | _ => none

/-- The message that was received, if one was. -/
def received? : Event state → Option Bytes
  | .exchanged (.received (.ok message)) => some message
  | _ => none

/-- Nothing passes between the parties. -/
def Silent : Event state → Prop
  | .exchanged _ => False
  | _ => True

end Event

namespace Activity

variable {σ α : Type} {rounds : Rounds σ α}

/-- The step of a party in which it goes through the event. -/
inductive Acts (rounds : Rounds σ α) : Activity σ α → Event σ → Activity σ α → Prop
  | began {state : σ} :
      Acts rounds (.running (.done (.again state))) (.began state) (.running (rounds state))
  | ended {value : α} : Acts rounds (.running (.done (.finish value))) .ended (.ended value)
  | sent {message : Bytes} {next : Except SendFailure Unit → Process (Next σ α)}
      {outcome : Except SendFailure Unit} :
      Acts rounds (.running (.send message next)) (.exchanged (.sent message outcome))
        (.running (next outcome))
  | received {next : Except ReceiveFailure Bytes → Process (Next σ α)}
      {outcome : Except ReceiveFailure Bytes} :
      Acts rounds (.running (.receive next)) (.exchanged (.received outcome))
        (.running (next outcome))

/-- The steps of a party in which it goes through the events, one after the other. -/
inductive Follows (rounds : Rounds σ α) :
    Activity σ α → List (Event σ) → Activity σ α → Prop
  | refl {activity : Activity σ α} : Follows rounds activity [] activity
  | step {activity middle final : Activity σ α} {event : Event σ} {rest : List (Event σ)}
      (acts : Acts rounds activity event middle) (others : Follows rounds middle rest final) :
      Follows rounds activity (event :: rest) final

theorem Follows.trans {activity middle final : Activity σ α} {first rest : List (Event σ)}
    (one : Follows rounds activity first middle) (two : Follows rounds middle rest final) :
    Follows rounds activity (first ++ rest) final := by
  induction one with
  | refl => exact two
  | step acts others inductionHypothesis => exact .step acts (inductionHypothesis two)

/-- An event determines the step in which a party goes through it. -/
theorem Acts.unique {activity first second : Activity σ α} {event : Event σ}
    (one : Acts rounds activity event first) (two : Acts rounds activity event second) :
    first = second := by
  cases one <;> cases two <;> rfl

/-- What a party goes through determines where it comes. -/
theorem Follows.unique {activity first second : Activity σ α} {events : List (Event σ)}
    (one : Follows rounds activity events first) (two : Follows rounds activity events second) :
    first = second := by
  induction one with
  | refl =>
      cases two
      rfl
  | step acts others inductionHypothesis =>
      cases two with
      | step acts' others' =>
          obtain rfl := acts.unique acts'
          exact inductionHypothesis others'

/-- A party that has ended goes through nothing. -/
theorem Follows.of_ended {value : α} {final : Activity σ α} {events : List (Event σ)}
    (follows : Follows rounds (.ended value) events final) : events = [] ∧ final = .ended value := by
  cases follows with
  | refl => exact ⟨rfl, rfl⟩
  | step acts others => cases acts

theorem Follows.eq_of_nil {activity final : Activity σ α} (follows : Follows rounds activity [] final) :
    activity = final := by
  cases follows
  rfl

/-- A party that has something ahead has not ended. -/
theorem Follows.result?_of_ahead {activity final : Activity σ α} {events : List (Event σ)}
    (follows : Follows rounds activity events final) (ahead : events ≠ []) :
    activity.result? = none := by
  cases activity with
  | running process => rfl
  | ended value => exact absurd follows.of_ended.1 ahead

/-- A party that will be running is running. -/
theorem Follows.result?_eq_none {activity final : Activity σ α} {events : List (Event σ)}
    (follows : Follows rounds activity events final) (running : final.result? = none) :
    activity.result? = none := by
  cases activity with
  | running process => rfl
  | ended value =>
      rw [follows.of_ended.2] at running
      cases running

/-- A party goes through the exchanges of its process. -/
theorem Follows.of_reaches {process goal : Process (Next σ α)} {exchanges : List Exchange}
    (reaches : process.Reaches exchanges goal) :
    Follows rounds (.running process) (exchanges.map .exchanged) (.running goal) := by
  induction reaches with
  | refl => exact .refl
  | send reaches inductionHypothesis => exact .step .sent inductionHypothesis
  | receive reaches inductionHypothesis => exact .step .received inductionHypothesis

end Activity

/-- What two parties go through fits together, given the messages on their way to the
evaluator and to the garbler: in some order of steps no queue is ever too full for a message
that is sent, every message that is received is the oldest of its queue, and in the end no
message is left. -/
inductive Fits {σ τ : Type} :
    (toEvaluator toGarbler : List Bytes) → List (Event σ) → List (Event τ) → Prop
  | nil : Fits [] [] [] []
  | garblerSilent {u v : List Bytes} {event : Event σ} {garbler : List (Event σ)}
      {evaluator : List (Event τ)} (silent : event.Silent) (fits : Fits u v garbler evaluator) :
      Fits u v (event :: garbler) evaluator
  | evaluatorSilent {u v : List Bytes} {event : Event τ} {garbler : List (Event σ)}
      {evaluator : List (Event τ)} (silent : event.Silent) (fits : Fits u v garbler evaluator) :
      Fits u v garbler (event :: evaluator)
  | garblerSends {u v : List Bytes} {message : Bytes} {garbler : List (Event σ)}
      {evaluator : List (Event τ)} (room : u.length < queueCapacity)
      (fits : Fits (u ++ [message]) v garbler evaluator) :
      Fits u v (.out message :: garbler) evaluator
  | evaluatorReceives {u v : List Bytes} {message : Bytes} {garbler : List (Event σ)}
      {evaluator : List (Event τ)} (fits : Fits u v garbler evaluator) :
      Fits (message :: u) v garbler (.into message :: evaluator)
  | evaluatorSends {u v : List Bytes} {message : Bytes} {garbler : List (Event σ)}
      {evaluator : List (Event τ)} (room : v.length < queueCapacity)
      (fits : Fits u (v ++ [message]) garbler evaluator) :
      Fits u v garbler (.out message :: evaluator)
  | garblerReceives {u v : List Bytes} {message : Bytes} {garbler : List (Event σ)}
      {evaluator : List (Event τ)} (fits : Fits u v garbler evaluator) :
      Fits u (message :: v) (.into message :: garbler) evaluator

namespace Fits

variable {σ τ : Type} {u v : List Bytes} {garbler garblerMore : List (Event σ)}
  {evaluator evaluatorMore : List (Event τ)} {message : Bytes}

/-- The roles of the parties can be exchanged. -/
theorem symm (fits : Fits u v garbler evaluator) : Fits v u evaluator garbler := by
  induction fits with
  | nil => exact .nil
  | garblerSilent silent _ inductionHypothesis => exact .evaluatorSilent silent inductionHypothesis
  | evaluatorSilent silent _ inductionHypothesis => exact .garblerSilent silent inductionHypothesis
  | garblerSends room _ inductionHypothesis => exact .evaluatorSends room inductionHypothesis
  | evaluatorReceives _ inductionHypothesis => exact .garblerReceives inductionHypothesis
  | evaluatorSends room _ inductionHypothesis => exact .garblerSends room inductionHypothesis
  | garblerReceives _ inductionHypothesis => exact .evaluatorReceives inductionHypothesis

/-- What fits together can be followed by what fits together on empty queues. -/
theorem append (fits : Fits u v garbler evaluator) (more : Fits [] [] garblerMore evaluatorMore) :
    Fits u v (garbler ++ garblerMore) (evaluator ++ evaluatorMore) := by
  induction fits with
  | nil => exact more
  | garblerSilent silent _ inductionHypothesis => exact .garblerSilent silent inductionHypothesis
  | evaluatorSilent silent _ inductionHypothesis =>
      exact .evaluatorSilent silent inductionHypothesis
  | garblerSends room _ inductionHypothesis => exact .garblerSends room inductionHypothesis
  | evaluatorReceives _ inductionHypothesis => exact .evaluatorReceives inductionHypothesis
  | evaluatorSends room _ inductionHypothesis => exact .evaluatorSends room inductionHypothesis
  | garblerReceives _ inductionHypothesis => exact .garblerReceives inductionHypothesis

/-- A silent event of the garbler can happen at once. -/
theorem of_silent {event : Event σ} (silent : event.Silent)
    (fits : Fits u v (event :: garbler) evaluator) : Fits u v garbler evaluator := by
  generalize whole : event :: garbler = events at fits
  induction fits with
  | nil => cases whole
  | garblerSilent _ fits _ =>
      cases whole
      exact fits
  | evaluatorSilent silent _ inductionHypothesis =>
      exact .evaluatorSilent silent (inductionHypothesis whole)
  | garblerSends =>
      cases whole
      exact silent.elim
  | evaluatorReceives _ inductionHypothesis => exact .evaluatorReceives (inductionHypothesis whole)
  | evaluatorSends room _ inductionHypothesis =>
      exact .evaluatorSends room (inductionHypothesis whole)
  | garblerReceives =>
      cases whole
      exact silent.elim

/-- A message of the garbler can be sent at once if there is room for it. -/
theorem of_sends {outcome : Except SendFailure Unit}
    (fits : Fits u v (.exchanged (.sent message outcome) :: garbler) evaluator)
    (room : u.length < queueCapacity) :
    outcome = .ok () ∧ Fits (u ++ [message]) v garbler evaluator := by
  generalize whole : Event.exchanged (.sent message outcome) :: garbler = events at fits
  induction fits with
  | nil => cases whole
  | garblerSilent silent =>
      cases whole
      exact silent.elim
  | evaluatorSilent silent _ inductionHypothesis =>
      obtain ⟨success, fits⟩ := inductionHypothesis room whole
      exact ⟨success, .evaluatorSilent silent fits⟩
  | garblerSends _ fits _ =>
      cases whole
      exact ⟨rfl, fits⟩
  | evaluatorReceives _ inductionHypothesis =>
      obtain ⟨success, fits⟩ := inductionHypothesis (Nat.lt_of_succ_lt room) whole
      exact ⟨success, .evaluatorReceives fits⟩
  | evaluatorSends free _ inductionHypothesis =>
      obtain ⟨success, fits⟩ := inductionHypothesis room whole
      exact ⟨success, .evaluatorSends free fits⟩
  | garblerReceives => cases whole

/-- The garbler can receive the oldest message on its way at once. -/
theorem of_receives {outcome : Except ReceiveFailure Bytes}
    (fits : Fits u (message :: v) (.exchanged (.received outcome) :: garbler) evaluator) :
    outcome = .ok message ∧ Fits u v garbler evaluator := by
  generalize whole : Event.exchanged (.received outcome) :: garbler = events at fits
  generalize queue : message :: v = messages at fits
  induction fits generalizing v with
  | nil => cases whole
  | garblerSilent silent =>
      cases whole
      exact silent.elim
  | evaluatorSilent silent _ inductionHypothesis =>
      obtain ⟨success, fits⟩ := inductionHypothesis whole queue
      exact ⟨success, .evaluatorSilent silent fits⟩
  | garblerSends => cases whole
  | evaluatorReceives _ inductionHypothesis =>
      obtain ⟨success, fits⟩ := inductionHypothesis whole queue
      exact ⟨success, .evaluatorReceives fits⟩
  | evaluatorSends room _ inductionHypothesis =>
      subst queue
      obtain ⟨success, fits⟩ := inductionHypothesis whole rfl
      exact ⟨success, .evaluatorSends (Nat.lt_of_succ_lt room) fits⟩
  | garblerReceives fits _ =>
      cases whole
      cases queue
      exact ⟨rfl, fits⟩

/-- Messages to a party that is through would be left. -/
theorem queue_eq_nil (fits : Fits u v ([] : List (Event σ)) evaluator) : v = [] := by
  generalize whole : ([] : List (Event σ)) = events at fits
  induction fits with
  | nil => rfl
  | garblerSilent => cases whole
  | evaluatorSilent _ _ inductionHypothesis => exact inductionHypothesis whole
  | garblerSends => cases whole
  | evaluatorReceives _ inductionHypothesis => exact inductionHypothesis whole
  | evaluatorSends _ _ inductionHypothesis =>
      have left := inductionHypothesis whole
      simp at left
  | garblerReceives => cases whole

/-- Nothing is sent to a party that is through. -/
theorem not_sends {outcome : Except SendFailure Unit}
    (fits : Fits u v ([] : List (Event σ)) (.exchanged (.sent message outcome) :: evaluator)) :
    False := by
  cases fits with
  | evaluatorSilent silent => exact silent.elim
  | evaluatorSends _ fits =>
      have left := fits.queue_eq_nil
      simp at left

/-- If neither queue has a message and the garbler is through, the evaluator waits for
nothing. -/
theorem not_receives {outcome : Except ReceiveFailure Bytes}
    (fits : Fits [] v ([] : List (Event σ)) (.exchanged (.received outcome) :: evaluator)) :
    False := by
  cases fits with
  | evaluatorSilent silent => exact silent.elim

end Fits

namespace Connection

/-- What comes of an event for the connection. -/
inductive Admits (connection : Connection) (role : Role) (closing : Bool) {σ : Type} :
    Event σ → Connection → Prop
  | began {state : σ} : Admits connection role closing (.began state) connection
  | ended : Admits connection role closing .ended
      (if closing then connection.close role else connection)
  | sent {message : Bytes} {outcome : Except SendFailure Unit} {after : Connection}
      (sent : connection.send role role.peer.party message = some (outcome, after)) :
      Admits connection role closing (.exchanged (.sent message outcome)) after
  | received {outcome : Except ReceiveFailure Bytes} {after : Connection}
      (received : connection.receive role role.peer.party = some (outcome, after)) :
      Admits connection role closing (.exchanged (.received outcome)) after

variable {σ α : Type} {connection after : Connection} {role : Role} {closing : Bool}
  {rounds : Rounds σ α} {activity next : Activity σ α}

/-- A party can take a step exactly if it goes through an event that the connection admits. -/
theorem step_eq_some_iff :
    connection.step role rounds closing activity = some (after, next) ↔
      ∃ event, activity.Acts rounds event next ∧
        connection.Admits role closing event after := by
  constructor
  · intro step
    match activity, step with
    | .running (.done (.again state)), step =>
        cases step
        exact ⟨_, .began, .began⟩
    | .running (.done (.finish value)), step =>
        cases step
        exact ⟨_, .ended, .ended⟩
    | .running (.send message others), step =>
        obtain ⟨⟨outcome, middle⟩, sent, same⟩ := Option.map_eq_some_iff.mp step
        cases same
        exact ⟨_, .sent, .sent sent⟩
    | .running (.receive others), step =>
        obtain ⟨⟨outcome, middle⟩, received, same⟩ := Option.map_eq_some_iff.mp step
        cases same
        exact ⟨_, .received, .received received⟩
  · rintro ⟨event, acts, admits⟩
    cases acts with
    | began =>
        cases admits
        rfl
    | ended =>
        cases admits
        rfl
    | sent =>
        cases admits with
        | sent sent => exact Option.map_eq_some_iff.mpr ⟨_, sent, rfl⟩
    | received =>
        cases admits with
        | received received => exact Option.map_eq_some_iff.mpr ⟨_, received, rfl⟩

end Connection

namespace Network

variable {σ α τ β : Type}

section

variable {parties : Parties σ α τ β} {network next : Network σ α τ β}

/-- A step of the garbler is an event that its connection admits. -/
theorem step_garbler_iff :
    network.step parties .garbler = some next ↔
      (∃ event, network.garbler.Acts parties.garbler event next.garbler ∧
        network.connection.Admits .garbler parties.closing event next.connection) ∧
      next.evaluator = network.evaluator := by
  constructor
  · intro step
    obtain ⟨⟨connection, activity⟩, stepped, rfl⟩ := Option.map_eq_some_iff.mp step
    exact ⟨Connection.step_eq_some_iff.mp stepped, rfl⟩
  · rintro ⟨possible, still⟩
    refine Option.map_eq_some_iff.mpr
      ⟨(next.connection, next.garbler), Connection.step_eq_some_iff.mpr possible, ?_⟩
    rw [← still]

/-- A step of the evaluator is an event that its connection admits. -/
theorem step_evaluator_iff :
    network.step parties .evaluator = some next ↔
      (∃ event, network.evaluator.Acts parties.evaluator event next.evaluator ∧
        network.connection.Admits .evaluator parties.closing event next.connection) ∧
      next.garbler = network.garbler := by
  constructor
  · intro step
    obtain ⟨⟨connection, activity⟩, stepped, rfl⟩ := Option.map_eq_some_iff.mp step
    exact ⟨Connection.step_eq_some_iff.mp stepped, rfl⟩
  · rintro ⟨possible, still⟩
    refine Option.map_eq_some_iff.mpr
      ⟨(next.connection, next.evaluator), Connection.step_eq_some_iff.mpr possible, ?_⟩
    rw [← still]

end

/-- A run from one network to another, and what each party goes through in it. -/
inductive Run (parties : Parties σ α τ β) :
    Network σ α τ β → List (Event σ) → List (Event τ) → Network σ α τ β → Prop
  | refl {network : Network σ α τ β} : Run parties network [] [] network
  | garbler {network next final : Network σ α τ β} {event : Event σ} {garbler : List (Event σ)}
      {evaluator : List (Event τ)} (step : network.step parties .garbler = some next)
      (acts : network.garbler.Acts parties.garbler event next.garbler)
      (admits : network.connection.Admits .garbler parties.closing event next.connection)
      (rest : Run parties next garbler evaluator final) :
      Run parties network (event :: garbler) evaluator final
  | evaluator {network next final : Network σ α τ β} {event : Event τ} {garbler : List (Event σ)}
      {evaluator : List (Event τ)} (step : network.step parties .evaluator = some next)
      (acts : network.evaluator.Acts parties.evaluator event next.evaluator)
      (admits : network.connection.Admits .evaluator parties.closing event next.connection)
      (rest : Run parties next garbler evaluator final) :
      Run parties network garbler (event :: evaluator) final

/-- Whatever order of steps is taken, the run goes on, through networks of which `ongoing`
holds, until it comes to a network of which `goal` holds. -/
inductive Leads (parties : Parties σ α τ β) (ongoing goal : Network σ α τ β → Prop) :
    Network σ α τ β → Prop
  | now {network : Network σ α τ β} (reached : goal network) : Leads parties ongoing goal network
  | later {network : Network σ α τ β} (holds : ongoing network)
      (progress : ∃ role next, network.step parties role = some next)
      (steps : ∀ role next, network.step parties role = some next →
        Leads parties ongoing goal next) : Leads parties ongoing goal network

namespace Leads

variable {parties : Parties σ α τ β} {ongoing goal weaker : Network σ α τ β → Prop}
  {network : Network σ α τ β}

theorem mono (leads : Leads parties ongoing goal network)
    (implies : ∀ network, ongoing network → weaker network) : Leads parties weaker goal network := by
  induction leads with
  | now reached => exact .now reached
  | later holds progress steps inductionHypothesis =>
      exact .later (implies _ holds) progress inductionHypothesis

/-- There is a run that comes to the goal. -/
theorem exists_run (leads : Leads parties ongoing goal network) :
    ∃ garbler evaluator final, Run parties network garbler evaluator final ∧ goal final := by
  induction leads with
  | @now network reached => exact ⟨[], [], network, .refl, reached⟩
  | later holds progress steps inductionHypothesis =>
      obtain ⟨role, next, stepped⟩ := progress
      obtain ⟨garbler, evaluator, final, rest, reached⟩ := inductionHypothesis role next stepped
      cases role with
      | garbler =>
          obtain ⟨⟨event, acts, admits⟩, _⟩ := step_garbler_iff.mp stepped
          exact ⟨_, _, final, .garbler stepped acts admits rest, reached⟩
      | evaluator =>
          obtain ⟨⟨event, acts, admits⟩, _⟩ := step_evaluator_iff.mp stepped
          exact ⟨_, _, final, .evaluator stepped acts admits rest, reached⟩

end Leads

end Network

end Garbling
