import Mathlib
import Garbling.Proofs.Together

/-!
# What can become of a run

A run is over for both parties once one of them fails and the other one cannot succeed without a
message from it. If there is, for any number of steps, a course on which the parties end in
agreement, or one of them fails in this way, or more steps than that number are ahead of both, then
the parties end in agreement whatever happens. What can happen is that a party takes a step, or
that a party gives up waiting because neither party can take a step.
-/

namespace Garbling

/-- All that passes is silent, or a message that is received. -/
def Event.Listening {state : Type} (events : List (Event state)) : Prop :=
  ∀ event ∈ events, event.Silent ∨ ∃ message, event = .into message

namespace Fits

variable {σ τ : Type} {u v : List Bytes} {garbler : List (Event σ)} {evaluator : List (Event τ)}

/-- The evaluator receives what is on its way and what the garbler sends. -/
theorem received_eq (fits : Fits u v garbler evaluator) :
    Event.received evaluator = u ++ Event.sent garbler := by
  induction fits with
  | nil => rfl
  | @garblerSilent _ _ event _ _ silent _ inductionHypothesis =>
      rw [inductionHypothesis, Event.sent_cons]
      cases event with
      | exchanged exchange => exact silent.elim
      | began state => rfl
      | ended => rfl
  | @evaluatorSilent _ _ event _ _ silent _ inductionHypothesis =>
      rw [← inductionHypothesis, Event.received_cons]
      cases event with
      | exchanged exchange => exact silent.elim
      | began state => rfl
      | ended => rfl
  | garblerSends room _ inductionHypothesis =>
      rw [inductionHypothesis, List.append_assoc]
      rfl
  | evaluatorReceives _ inductionHypothesis => exact congrArg _ inductionHypothesis
  | evaluatorSends room _ inductionHypothesis => exact inductionHypothesis
  | garblerReceives _ inductionHypothesis => exact inductionHypothesis

/-- If the garbler is through then the evaluator only receives. -/
theorem listening (fits : Fits u v ([] : List (Event σ)) evaluator) :
    Event.Listening evaluator := by
  generalize whole : ([] : List (Event σ)) = events at fits
  induction fits with
  | nil => exact List.forall_mem_nil _
  | garblerSilent => cases whole
  | evaluatorSilent silent _ inductionHypothesis =>
      exact List.forall_mem_cons.mpr ⟨.inl silent, inductionHypothesis whole⟩
  | garblerSends => cases whole
  | evaluatorReceives _ inductionHypothesis =>
      exact List.forall_mem_cons.mpr ⟨.inr ⟨_, rfl⟩, inductionHypothesis whole⟩
  | evaluatorSends _ fits _ =>
      subst whole
      have left := fits.queue_eq_nil
      simp at left
  | garblerReceives => cases whole

end Fits

namespace Activity

variable {σ ε α : Type} {rounds : Rounds σ (Except ε α)} {activity next : Activity σ (Except ε α)}
  {event : Event σ}

/-- The party cannot succeed any more unless it receives a message. -/
def NeedsMessage (rounds : Rounds σ (Except ε α)) (activity : Activity σ (Except ε α)) : Prop :=
  ∀ events outputs, activity.Follows rounds events (.ended (.ok outputs)) →
    ∃ message, Event.into message ∈ events

/-- A party that has failed needs no message. -/
theorem needsMessage_of_error (rounds : Rounds σ (Except ε α)) (error : ε) :
    (Activity.ended (.error error)).NeedsMessage rounds := by
  intro events outputs follows
  cases follows.of_ended.2

/-- A party that needs a message has not succeeded. -/
theorem NeedsMessage.not_ended {outputs : α}
    (needs : (Activity.ended (.ok outputs)).NeedsMessage rounds) : False := by
  obtain ⟨message, member⟩ := needs [] outputs .refl
  exact List.not_mem_nil member

/-- A party that needs a message still needs one after a step in which it receives none. -/
theorem NeedsMessage.of_acts (needs : activity.NeedsMessage rounds)
    (acts : activity.Acts rounds event next) (none : event.received? = none) :
    next.NeedsMessage rounds := by
  intro events outputs follows
  obtain ⟨message, member⟩ := needs (event :: events) outputs (.step acts follows)
  refine ⟨message, (List.mem_cons.mp member).resolve_left ?_⟩
  rintro rfl
  cases none

end Activity

namespace Connection

variable {σ ε α τ ζ β : Type} {connection after : Connection} {role : Role} {closing : Bool}
  {rounds : Rounds σ (Except ε α)} {peerRounds : Rounds τ (Except ζ β)}
  {activity next : Activity σ (Except ε α)} {peer peerNext : Activity τ (Except ζ β)}

/-- One party will fail on messages that are on their way to it, and the other one needs a message,
but none is on its way. -/
structure Dooms (connection : Connection) (role : Role) (rounds : Rounds σ (Except ε α))
    (peerRounds : Rounds τ (Except ζ β)) (activity : Activity σ (Except ε α))
    (peer : Activity τ (Except ζ β)) (ahead : List (Event σ)) (error : ε) : Prop where
  fails : activity.Follows rounds ahead (.ended (.error error))
  listens : Event.Listening ahead
  arrives : Event.received ahead <+: connection.sent role.peer
  nothing : connection.sent role = []
  needs : peer.NeedsMessage peerRounds

namespace Dooms

variable {ahead : List (Event σ)} {error : ε}

/-- A party that will fail does so, whatever step it takes. -/
theorem of_step (dooms : connection.Dooms role rounds peerRounds activity peer ahead error)
    {event : Event σ} (acts : activity.Acts rounds event next)
    (admits : connection.Admits role closing event after) :
    ∃ rest, after.Dooms role rounds peerRounds next peer rest error := by
  obtain ⟨fails, listens, arrives, nothing, needs⟩ := dooms
  obtain ⟨joins, leaves⟩ := admits.queues
  cases fails with
  | refl => cases acts
  | @step _ middle _ head rest headActs others =>
      obtain ⟨heads, tails⟩ := List.forall_mem_cons.mp listens
      rw [Event.received_cons] at arrives
      have same : event = head ∧ next = middle := by
        rcases heads with silent | ⟨message, rfl⟩
        · exact headActs.of_silent silent acts
        · cases headActs
          cases acts
          cases admits with
          | received received =>
              rcases receive_eq_some_iff.mp received with
                ⟨found, _, queue, rfl, _⟩ | ⟨queue, _⟩
              · rw [queue] at arrives
                obtain ⟨rfl, _⟩ := List.cons_prefix_cons.mp arrives
                exact ⟨rfl, rfl⟩
              · rw [queue] at arrives
                cases List.prefix_nil.mp arrives
      obtain ⟨rfl, rfl⟩ := same
      have unsent : event.sent? = none := by
        rcases heads with silent | ⟨message, rfl⟩
        · cases event with
          | exchanged exchange => exact silent.elim
          | began state => rfl
          | ended => rfl
        · rfl
      refine ⟨rest, others, tails, ?_, ?_, needs⟩
      · rw [leaves] at arrives
        exact (List.prefix_append_right_inj _).mp arrives
      · rw [joins, nothing, unsent]
        rfl

/-- Whatever step the other party takes, it still needs a message. -/
theorem of_peer_step (dooms : connection.Dooms role rounds peerRounds activity peer ahead error)
    {event : Event τ} (acts : peer.Acts peerRounds event peerNext)
    (admits : connection.Admits role.peer closing event after) :
    after.Dooms role rounds peerRounds activity peerNext ahead error := by
  obtain ⟨joins, leaves⟩ := admits.queues
  rw [peer_peer, dooms.nothing] at leaves
  obtain ⟨none, empty⟩ := List.append_eq_nil_iff.mp leaves.symm
  refine ⟨dooms.fails, dooms.listens, ?_, ?_, dooms.needs.of_acts acts ?_⟩
  · rw [joins]
    exact dooms.arrives.trans (List.prefix_append _ _)
  · exact empty
  · simpa using none

/-- A party that will fail gives up only while it can take a step. -/
theorem not_giveUp (dooms : connection.Dooms role rounds peerRounds activity peer ahead error)
    (stuck : connection.step role rounds closing activity = none) : activity.giveUp = none := by
  cases gives : activity.giveUp with
  | none => rfl
  | some next =>
      exfalso
      match activity, gives, dooms.fails, dooms.listens, dooms.arrives with
      | .running (.receive others), _, .step .received _, listens, arrives =>
          rcases (List.forall_mem_cons.mp listens).1 with silent | ⟨message, same⟩
          · exact silent
          · cases same
            obtain ⟨rest, queue⟩ := arrives
            obtain ⟨after, admits⟩ := admits_into (σ := σ) role queue.symm
            cases stuck.symm.trans (step_eq_some_iff.mpr ⟨_, .received, admits⟩)

/-- The other party still needs a message when it has given up. -/
theorem of_peer_giveUp (dooms : connection.Dooms role rounds peerRounds activity peer ahead error)
    (gives : peer.giveUp = some peerNext) :
    connection.Dooms role rounds peerRounds activity peerNext ahead error := by
  match peer, gives, dooms with
  | .running (.receive others), gives, dooms =>
      cases gives
      have acts : (Activity.running (.receive others)).Acts peerRounds
          (.exchanged (.received (.error .timeoutElapsed)))
          (.running (others (.error .timeoutElapsed))) := .received
      exact { dooms with needs := dooms.needs.of_acts acts rfl }

end Dooms

end Connection

namespace Network

variable {σ ε α τ ζ β : Type} {parties : Parties σ (Except ε α) τ (Except ζ β)}
  {network next final : Network σ (Except ε α) τ (Except ζ β)}

/-- What can happen: a party takes a step, or a party gives up waiting because neither party can
take one. -/
inductive Change (parties : Parties σ (Except ε α) τ (Except ζ β))
    (network next : Network σ (Except ε α) τ (Except ζ β)) : Prop
  | step {role : Role} (stepped : network.step parties role = some next)
  | giveUp {role : Role} (stuck : ∀ role, network.step parties role = none)
      (gives : network.giveUp role = some next)

/-- What can become of a network. -/
inductive Becomes (parties : Parties σ (Except ε α) τ (Except ζ β)) :
    Network σ (Except ε α) τ (Except ζ β) → Network σ (Except ε α) τ (Except ζ β) → Prop
  | refl {network : Network σ (Except ε α) τ (Except ζ β)} : Becomes parties network network
  | change {network next final : Network σ (Except ε α) τ (Except ζ β)}
      (change : Change parties network next) (others : Becomes parties next final) :
      Becomes parties network final

/-- A run is one of the things that can become of a network. -/
theorem Run.becomes {garbler : List (Event σ)} {evaluator : List (Event τ)}
    (run : Run parties network garbler evaluator final) : Becomes parties network final := by
  induction run with
  | refl => exact .refl
  | garbler step acts admits rest inductionHypothesis =>
      exact .change (.step step) inductionHypothesis
  | evaluator step acts admits rest inductionHypothesis =>
      exact .change (.step step) inductionHypothesis

/-- One of the parties will fail, and the other one needs a message, but none is on its way. -/
inductive Doomed (parties : Parties σ (Except ε α) τ (Except ζ β))
    (network : Network σ (Except ε α) τ (Except ζ β)) : Prop
  | garbler {ahead : List (Event σ)} {error : ε}
      (dooms : network.connection.Dooms .garbler parties.garbler parties.evaluator network.garbler
        network.evaluator ahead error)
  | evaluator {ahead : List (Event τ)} {error : ζ}
      (dooms : network.connection.Dooms .evaluator parties.evaluator parties.garbler
        network.evaluator network.garbler ahead error)

/-- Parties that are doomed stay so. -/
theorem Doomed.change (doomed : Doomed parties network) (change : Change parties network next) :
    Doomed parties next := by
  cases change with
  | @step role stepped =>
      cases role with
      | garbler =>
          obtain ⟨⟨after, activity⟩, moved, rfl⟩ := Option.map_eq_some_iff.mp stepped
          obtain ⟨event, acts, admits⟩ := Connection.step_eq_some_iff.mp moved
          cases doomed with
          | garbler dooms =>
              obtain ⟨rest, left⟩ := dooms.of_step acts admits
              exact .garbler left
          | evaluator dooms => exact .evaluator (dooms.of_peer_step acts admits)
      | evaluator =>
          obtain ⟨⟨after, activity⟩, moved, rfl⟩ := Option.map_eq_some_iff.mp stepped
          obtain ⟨event, acts, admits⟩ := Connection.step_eq_some_iff.mp moved
          cases doomed with
          | garbler dooms => exact .garbler (dooms.of_peer_step acts admits)
          | evaluator dooms =>
              obtain ⟨rest, left⟩ := dooms.of_step acts admits
              exact .evaluator left
  | @giveUp role stuck gives =>
      have garblerStuck := Option.map_eq_none_iff.mp (stuck .garbler)
      have evaluatorStuck := Option.map_eq_none_iff.mp (stuck .evaluator)
      cases role with
      | garbler =>
          obtain ⟨activity, gave, rfl⟩ := Option.map_eq_some_iff.mp gives
          cases doomed with
          | garbler dooms => cases (dooms.not_giveUp garblerStuck).symm.trans gave
          | evaluator dooms => exact .evaluator (dooms.of_peer_giveUp gave)
      | evaluator =>
          obtain ⟨activity, gave, rfl⟩ := Option.map_eq_some_iff.mp gives
          cases doomed with
          | garbler dooms => exact .garbler (dooms.of_peer_giveUp gave)
          | evaluator dooms => cases (dooms.not_giveUp evaluatorStuck).symm.trans gave

/-- Parties that are doomed do not succeed. -/
theorem Doomed.fail (doomed : Doomed parties network) {first : Except ε α} {second : Except ζ β}
    (garbler : network.garbler = .ended first) (evaluator : network.evaluator = .ended second) :
    (∃ error, first = .error error) ∧ ∃ error, second = .error error := by
  cases doomed with
  | @garbler _ error dooms =>
      have fails := dooms.fails
      have needs := dooms.needs
      rw [garbler] at fails
      rw [evaluator] at needs
      cases fails.of_ended.2
      cases second with
      | error other => exact ⟨⟨_, rfl⟩, _, rfl⟩
      | ok outputs => exact needs.not_ended.elim
  | @evaluator _ error dooms =>
      have fails := dooms.fails
      have needs := dooms.needs
      rw [evaluator] at fails
      rw [garbler] at needs
      cases fails.of_ended.2
      cases first with
      | error other => exact ⟨⟨_, rfl⟩, _, rfl⟩
      | ok outputs => exact needs.not_ended.elim

/-- Where a course comes to: both parties have ended in agreement, or one of them has failed and the
other one needs a message. -/
inductive Settled (agreed : Except ε α → Except ζ β → Prop)
    (parties : Parties σ (Except ε α) τ (Except ζ β)) :
    Activity σ (Except ε α) → Activity τ (Except ζ β) → Prop
  | ended {first : Except ε α} {second : Except ζ β} (agree : agreed first second) :
      Settled agreed parties (.ended first) (.ended second)
  | garblerFails {evaluator : Activity τ (Except ζ β)} (error : ε)
      (needs : evaluator.NeedsMessage parties.evaluator) :
      Settled agreed parties (.ended (.error error)) evaluator
  | evaluatorFails {garbler : Activity σ (Except ε α)} (error : ζ)
      (needs : garbler.NeedsMessage parties.garbler) :
      Settled agreed parties garbler (.ended (.error error))

/-- What is known of the given number of steps from a network: the parties are doomed, or they are
on a course that comes to an agreement or to a failure, or that is longer. -/
inductive Foreseen (agreed : Except ε α → Except ζ β → Prop)
    (parties : Parties σ (Except ε α) τ (Except ζ β)) (steps : Nat)
    (network : Network σ (Except ε α) τ (Except ζ β)) : Prop
  | doomed (doomed : Doomed parties network)
  | course {garblerAhead : List (Event σ)} {evaluatorAhead : List (Event τ)}
      {garblerGoal : Activity σ (Except ε α)} {evaluatorGoal : Activity τ (Except ζ β)}
      (course : OnCourse parties network garblerAhead evaluatorAhead garblerGoal evaluatorGoal)
      (known : Settled agreed parties garblerGoal evaluatorGoal ∨
        steps < garblerAhead.length ∧ steps < evaluatorAhead.length)

section

variable {agreed : Except ε α → Except ζ β → Prop} {garblerAhead : List (Event σ)}
  {evaluatorAhead : List (Event τ)} {garblerGoal : Activity σ (Except ε α)}
  {evaluatorGoal : Activity τ (Except ζ β)} {steps : Nat}

/-- The garbler is at the end of its course, and the evaluator will fail. -/
theorem OnCourse.doomed_of_garbler {error : ζ}
    (course : OnCourse parties network [] evaluatorAhead garblerGoal (.ended (.error error)))
    (needs : garblerGoal.NeedsMessage parties.garbler) : Doomed parties network := by
  refine .evaluator ⟨course.evaluator, course.fits.listening, ?_, course.fits.queue_eq_nil, ?_⟩
  · rw [course.fits.received_eq]
    exact List.prefix_rfl.trans (by simp [Event.sent, Connection.sent, Role.peer])
  · rw [course.garbler.eq_of_nil]
    exact needs

/-- The evaluator is at the end of its course, and the garbler will fail. -/
theorem OnCourse.doomed_of_evaluator {error : ε}
    (course : OnCourse parties network garblerAhead [] (.ended (.error error)) evaluatorGoal)
    (needs : evaluatorGoal.NeedsMessage parties.evaluator) : Doomed parties network := by
  refine .garbler ⟨course.garbler, course.fits.symm.listening, ?_, course.fits.symm.queue_eq_nil,
    ?_⟩
  · rw [course.fits.symm.received_eq]
    exact List.prefix_rfl.trans (by simp [Event.sent, Connection.sent, Role.peer])
  · rw [course.evaluator.eq_of_nil]
    exact needs

/-- A step of the garbler uses up at most one of the steps that are known. -/
theorem OnCourse.foreseen_garbler
    (course : OnCourse parties network garblerAhead evaluatorAhead garblerGoal evaluatorGoal)
    (known : Settled agreed parties garblerGoal evaluatorGoal ∨
      steps + 1 < garblerAhead.length ∧ steps + 1 < evaluatorAhead.length)
    (stepped : network.step parties .garbler = some next) :
    Foreseen agreed parties steps next := by
  by_cases through : garblerAhead = []
  · subst through
    have here := course.garbler.eq_of_nil
    rcases known with settled | ⟨shorter, _⟩
    · cases settled with
      | ended agree => cases (step_garbler_of_ended here).symm.trans stepped
      | garblerFails error needs => cases (step_garbler_of_ended here).symm.trans stepped
      | evaluatorFails error needs =>
          exact .doomed ((course.doomed_of_garbler needs).change (.step stepped))
    · cases shorter
  · obtain ⟨event, rest, rfl, onCourse⟩ := course.step_garbler through stepped
    refine .course onCourse (known.imp_right fun ⟨first, second⟩ => ?_)
    rw [List.length_cons] at first
    omega

/-- A step of the evaluator uses up at most one of the steps that are known. -/
theorem OnCourse.foreseen_evaluator
    (course : OnCourse parties network garblerAhead evaluatorAhead garblerGoal evaluatorGoal)
    (known : Settled agreed parties garblerGoal evaluatorGoal ∨
      steps + 1 < garblerAhead.length ∧ steps + 1 < evaluatorAhead.length)
    (stepped : network.step parties .evaluator = some next) :
    Foreseen agreed parties steps next := by
  by_cases through : evaluatorAhead = []
  · subst through
    have here := course.evaluator.eq_of_nil
    rcases known with settled | ⟨_, shorter⟩
    · cases settled with
      | ended agree => cases (step_evaluator_of_ended here).symm.trans stepped
      | garblerFails error needs =>
          exact .doomed ((course.doomed_of_evaluator needs).change (.step stepped))
      | evaluatorFails error needs => cases (step_evaluator_of_ended here).symm.trans stepped
    · cases shorter
  · obtain ⟨event, rest, rfl, onCourse⟩ := course.step_evaluator through stepped
    refine .course onCourse (known.imp_right fun ⟨first, second⟩ => ?_)
    rw [List.length_cons] at second
    omega

/-- Whatever happens uses up at most one of the steps that are known. -/
theorem Foreseen.change (foreseen : Foreseen agreed parties (steps + 1) network)
    (change : Change parties network next) : Foreseen agreed parties steps next := by
  cases foreseen with
  | doomed doomed => exact .doomed (doomed.change change)
  | @course garblerAhead evaluatorAhead _ _ course known =>
      cases change with
      | @step role stepped =>
          cases role with
          | garbler => exact course.foreseen_garbler known stepped
          | evaluator => exact course.foreseen_evaluator known stepped
      | @giveUp role stuck gives =>
          -- Somebody could take a step if anything were ahead.
          have through : ¬(garblerAhead ≠ [] ∨ evaluatorAhead ≠ []) := by
            intro ahead
            obtain ⟨role, next, stepped⟩ := course.progress ahead
            cases (stuck role).symm.trans stepped
          obtain ⟨rfl, rfl⟩ : garblerAhead = [] ∧ evaluatorAhead = [] := by
            simpa only [not_or, ne_eq, not_not] using through
          rcases known with settled | ⟨shorter, _⟩
          · cases settled with
            | ended agree =>
                have garblerEnded := course.garbler.eq_of_nil
                have evaluatorEnded := course.evaluator.eq_of_nil
                cases role with
                | garbler => simp [Network.giveUp, garblerEnded, Activity.giveUp] at gives
                | evaluator => simp [Network.giveUp, evaluatorEnded, Activity.giveUp] at gives
            | garblerFails error needs =>
                exact .doomed ((course.doomed_of_evaluator needs).change (.giveUp stuck gives))
            | evaluatorFails error needs =>
                exact .doomed ((course.doomed_of_garbler needs).change (.giveUp stuck gives))
          · cases shorter

/-- Parties of which something is known have ended in agreement if they have ended. -/
theorem Foreseen.agree (foreseen : Foreseen agreed parties steps network)
    (failures : ∀ first second, agreed (.error first) (.error second)) {first : Except ε α}
    {second : Except ζ β} (garbler : network.garbler = .ended first)
    (evaluator : network.evaluator = .ended second) : agreed first second := by
  cases foreseen with
  | doomed doomed =>
      obtain ⟨⟨_, rfl⟩, _, rfl⟩ := doomed.fail garbler evaluator
      exact failures _ _
  | course course known =>
      have garblerFollows := course.garbler
      have evaluatorFollows := course.evaluator
      rw [garbler] at garblerFollows
      rw [evaluator] at evaluatorFollows
      obtain ⟨rfl, rfl⟩ := garblerFollows.of_ended
      obtain ⟨rfl, rfl⟩ := evaluatorFollows.of_ended
      rcases known with settled | ⟨shorter, _⟩
      · cases settled with
        | ended agree => exact agree
        | garblerFails error needs =>
            cases second with
            | error other => exact failures _ _
            | ok outputs => exact needs.not_ended.elim
        | evaluatorFails error needs =>
            cases first with
            | error other => exact failures _ _
            | ok outputs => exact needs.not_ended.elim
      · cases shorter

/-- If any number of steps is known, then the parties can only end in agreement. -/
theorem Becomes.agree (becomes : Becomes parties network final)
    (foreseen : ∀ steps, Foreseen agreed parties steps network)
    (failures : ∀ first second, agreed (.error first) (.error second)) {first : Except ε α}
    {second : Except ζ β} (garbler : final.garbler = .ended first)
    (evaluator : final.evaluator = .ended second) : agreed first second := by
  induction becomes with
  | refl => exact (foreseen 0).agree failures garbler evaluator
  | change change _ inductionHypothesis =>
      exact inductionHypothesis (fun steps => (foreseen (steps + 1)).change change) garbler evaluator

end

end Network

namespace Parties

variable {σ ε α τ ζ β : Type} {parties : Parties σ (Except ε α) τ (Except ζ β)}
  {agreed : Except ε α → Except ζ β → Prop} {messages : List Bytes} {begun : List σ}
  {garbler garblerAfter : Activity σ (Except ε α)} {evaluator evaluatorAfter : Activity τ (Except ζ β)}
  {steps fewer : Nat}

/-- The parties get together to where their run is settled, or the garbler sends at least the given
number of messages on their way. -/
def Prospect (parties : Parties σ (Except ε α) τ (Except ζ β))
    (agreed : Except ε α → Except ζ β → Prop) (steps : Nat) (garbler : Activity σ (Except ε α))
    (evaluator : Activity τ (Except ζ β)) : Prop :=
  ∃ messages begun garblerGoal evaluatorGoal,
    parties.Joint garbler evaluator messages begun garblerGoal evaluatorGoal ∧
      (Network.Settled agreed parties garblerGoal evaluatorGoal ∨ steps ≤ messages.length)

namespace Prospect

theorem zero : parties.Prospect agreed 0 garbler evaluator :=
  ⟨[], [], _, _, .refl, .inr (Nat.zero_le _)⟩

theorem of_settled
    (joint : parties.Joint garbler evaluator messages begun garblerAfter evaluatorAfter)
    (settled : Network.Settled agreed parties garblerAfter evaluatorAfter) :
    parties.Prospect agreed steps garbler evaluator :=
  ⟨_, _, _, _, joint, .inl settled⟩

/-- What the garbler sends before adds to what is known. -/
theorem after (prospect : parties.Prospect agreed fewer garblerAfter evaluatorAfter)
    (joint : parties.Joint garbler evaluator messages begun garblerAfter evaluatorAfter)
    (enough : steps ≤ messages.length + fewer) :
    parties.Prospect agreed steps garbler evaluator := by
  obtain ⟨more, others, _, _, next, known⟩ := prospect
  refine ⟨_, _, _, _, joint.trans next, known.imp_right fun long => ?_⟩
  rw [List.length_append]
  omega

/-- What is known at the start of a run foresees its steps. -/
theorem foreseen {garbler : σ} {evaluator : τ}
    (prospect : parties.Prospect agreed (steps + 1) (.running (parties.garbler garbler))
      (.running (parties.evaluator evaluator))) :
    Network.Foreseen agreed parties steps (Network.start parties garbler evaluator {}) := by
  obtain ⟨messages, begun, _, _, joint, known⟩ := prospect
  obtain ⟨garblerAhead, evaluatorAhead, course, rfl, _⟩ := joint.on_course
  refine .course course (known.imp_right fun longer => ?_)
  have sent : (Event.sent garblerAhead).length ≤ garblerAhead.length :=
    List.length_filterMap_le _ _
  have received : (Event.received evaluatorAhead).length ≤ evaluatorAhead.length :=
    List.length_filterMap_le _ _
  rw [course.fits.received_eq, List.length_append] at received
  omega

end Prospect

end Parties

end Garbling
