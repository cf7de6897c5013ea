import Mathlib
import Garbling.Network.Chunks
import Garbling.Proofs.Orderly

/-!
# Parties that hang up

A party that fails hangs up: it closes its end of the connection. A party that succeeds may do so as
well, or keep its end open for what it does next. If both parties are on course to their ends then
they come there all the same. If one of them fails without a word, and the other one needs a message
to succeed, then both fail. In either case some party can always take a step until both have ended,
so nobody has to wait until its time is over.
-/

namespace Garbling

/-! ## The roles exchanged -/

namespace Connection

/-- The connection with the roles exchanged. -/
def swap (connection : Connection) : Connection :=
  ⟨connection.fromEvaluator, connection.fromGarbler, connection.evaluatorClosed,
    connection.garblerClosed⟩

variable (connection : Connection) (role : Role) (message : Bytes) (messages : List Bytes)

@[simp] theorem sent_swap : connection.swap.sent role.peer = connection.sent role := by
  cases role <;> rfl

@[simp] theorem isClosed_swap : connection.swap.isClosed role.peer = connection.isClosed role := by
  cases role <;> rfl

@[simp] theorem setSent_swap :
    connection.swap.setSent messages role.peer = (connection.setSent messages role).swap := by
  cases role <;> rfl

@[simp] theorem close_swap : connection.swap.close role.peer = (connection.close role).swap := by
  cases role <;> rfl

theorem send_swap :
    connection.swap.send role.peer role.peer.peer.party message =
      (connection.send role role.peer.party message).map (Prod.map id swap) := by
  simp only [send, ne_eq, not_true, if_false, isClosed_swap, sent_swap, setSent_swap]
  by_cases closed : connection.isClosed role.peer = true
  · simp only [closed, if_true, Option.map_some, Prod.map_apply, id]
  · by_cases room : (connection.sent role).length < queueCapacity
    · simp only [closed, room, if_true]
      rfl
    · simp only [closed, room, if_false]
      rfl

theorem receive_swap :
    connection.swap.receive role.peer role.peer.peer.party =
      (connection.receive role role.peer.party).map (Prod.map id swap) := by
  simp only [receive, ne_eq, not_true, if_false, isClosed_swap, sent_swap, setSent_swap]
  cases connection.sent role.peer with
  | cons message rest => rfl
  | nil => cases connection.isClosed role.peer <;> rfl

variable {σ α : Type} (rounds : Rounds σ α) (closing : Bool) (activity : Activity σ α)

/-- Exchanging the roles exchanges the steps. -/
theorem step_swap :
    connection.swap.step role.peer rounds closing activity =
      (connection.step role rounds closing activity).map (Prod.map swap id) := by
  match activity with
  | .ended value => rfl
  | .running (.done (.again state)) => rfl
  | .running (.done (.finish value)) =>
      cases closing with
      | true => exact congrArg (fun connection => some (connection, _)) (connection.close_swap role)
      | false => rfl
  | .running (.send message next) =>
      simp only [step, send_swap, Option.map_map]
      rfl
  | .running (.receive next) =>
      simp only [step, receive_swap, Option.map_map]
      rfl

end Connection

section

variable {σ α τ β : Type}

/-- The parties with the roles exchanged. -/
def Parties.swap (parties : Parties σ α τ β) : Parties τ β σ α :=
  ⟨parties.evaluator, parties.garbler, parties.closing⟩

/-- The network with the roles exchanged. -/
def Network.swap (network : Network σ α τ β) : Network τ β σ α :=
  ⟨network.connection.swap, network.evaluator, network.garbler⟩

theorem Network.step_swap (parties : Parties σ α τ β) (network : Network σ α τ β) (role : Role) :
    network.swap.step parties.swap role.peer = (network.step parties role).map swap := by
  cases role with
  | garbler =>
      change (network.connection.swap.step Role.garbler.peer _ _ _).map _ = _
      rw [Connection.step_swap]
      simp only [step, Option.map_map]
      rfl
  | evaluator =>
      change (network.connection.swap.step Role.evaluator.peer _ _ _).map _ = _
      rw [Connection.step_swap]
      simp only [step, Option.map_map]
      rfl

end

/-! ## Steps in which a failing party hangs up -/

namespace Network

variable {σ τ ε ζ α β : Type}

/-- The party with the given role has failed, or is about to end with a failure. -/
def Failing (network : Network σ (Except ε α) τ (Except ζ β)) : Role → Prop
  | .garbler => network.garbler.Failing
  | .evaluator => network.evaluator.Failing

/-- A step of one party. A party that fails hangs up; whether one that succeeds does so is left
open. -/
def Moves (parties : Parties σ (Except ε α) τ (Except ζ β))
    (network : Network σ (Except ε α) τ (Except ζ β)) (role : Role)
    (next : Network σ (Except ε α) τ (Except ζ β)) : Prop :=
  ∃ closing, (network.Failing role → closing = true) ∧
    network.step { parties with closing } role = some next

/-- Whatever moves are made, in any order, the run goes on through networks of which `ongoing`
holds, until it comes to a network of which `goal` holds. -/
inductive Settles (parties : Parties σ (Except ε α) τ (Except ζ β))
    (ongoing goal : Network σ (Except ε α) τ (Except ζ β) → Prop) :
    Network σ (Except ε α) τ (Except ζ β) → Prop
  | now {network : Network σ (Except ε α) τ (Except ζ β)} (reached : goal network) :
      Settles parties ongoing goal network
  | later {network : Network σ (Except ε α) τ (Except ζ β)} (holds : ongoing network)
      (progress : ∃ role next, Moves parties network role next)
      (moves : ∀ role next, Moves parties network role next →
        Settles parties ongoing goal next) : Settles parties ongoing goal network

variable {parties : Parties σ (Except ε α) τ (Except ζ β)}
  {network next : Network σ (Except ε α) τ (Except ζ β)} {role : Role}
  {ongoing goal invariant : Network σ (Except ε α) τ (Except ζ β) → Prop}

theorem Moves.swap (moves : Moves parties network role next) :
    Moves parties.swap network.swap role.peer next.swap := by
  obtain ⟨closing, failing, step⟩ := moves
  refine ⟨closing, fun fails => failing ?_, ?_⟩
  · cases role <;> exact fails
  · have swapped := Network.step_swap { parties with closing } network role
    rw [step] at swapped
    exact swapped

theorem Settles.mono {looser weaker : Network σ (Except ε α) τ (Except ζ β) → Prop}
    (settles : Settles parties ongoing goal network)
    (onTheWay : ∀ network, ongoing network → looser network)
    (atTheEnd : ∀ network, goal network → weaker network) :
    Settles parties looser weaker network := by
  induction settles with
  | now reached => exact .now (atTheEnd _ reached)
  | later holds progress moves inductionHypothesis =>
      exact .later (onTheWay _ holds) progress inductionHypothesis

/-- What every move keeps holds all the way. -/
theorem Settles.keeping (settles : Settles parties ongoing goal network)
    (holds : invariant network)
    (kept : ∀ network role next, invariant network → Moves parties network role next →
      invariant next) :
    Settles parties (fun network => ongoing network ∧ invariant network)
      (fun network => goal network ∧ invariant network) network := by
  induction settles with
  | now reached => exact .now ⟨reached, holds⟩
  | later going progress moves inductionHypothesis =>
      exact .later ⟨going, holds⟩ progress fun role next move =>
        inductionHypothesis role next move (kept _ role next holds move)

theorem Settles.swap {ongoing goal : Network τ (Except ζ β) σ (Except ε α) → Prop}
    (settles : Settles parties.swap ongoing goal network.swap) :
    Settles parties (fun network => ongoing network.swap) (fun network => goal network.swap)
      network := by
  generalize same : network.swap = swapped at settles
  induction settles generalizing network with
  | now reached =>
      subst same
      exact .now reached
  | later holds progress moves inductionHypothesis =>
      subst same
      refine .later holds ?_ fun role next move => inductionHypothesis role.peer _ move.swap rfl
      obtain ⟨role, next, move⟩ := progress
      exact ⟨role.peer, next.swap, move.swap⟩

/-- Whether the parties close their ends does not matter to what is ahead of them. -/
theorem OnCourse.ofClosing {garblerAhead : List (Event σ)} {evaluatorAhead : List (Event τ)}
    {garblerGoal : Activity σ (Except ε α)} {evaluatorGoal : Activity τ (Except ζ β)}
    (course : OnCourse parties network garblerAhead evaluatorAhead garblerGoal evaluatorGoal)
    (closing : Bool) :
    OnCourse { parties with closing } network garblerAhead evaluatorAhead garblerGoal
      evaluatorGoal :=
  ⟨course.garbler, course.evaluator, course.fits, course.garblerOpen, course.evaluatorOpen⟩

/-- A run on course to the end of both parties settles there. -/
theorem OnCourse.settles {garblerAhead : List (Event σ)} {evaluatorAhead : List (Event τ)}
    {first : Except ε α} {second : Except ζ β}
    (course : OnCourse parties network garblerAhead evaluatorAhead (.ended first)
      (.ended second)) :
    Settles parties (fun _ => True)
      (fun network => network.garbler = .ended first ∧ network.evaluator = .ended second)
      network := by
  induction size : garblerAhead.length + evaluatorAhead.length using Nat.strong_induction_on
    generalizing network garblerAhead evaluatorAhead with
  | _ size inductionHypothesis =>
      subst size
      by_cases ahead : garblerAhead ≠ [] ∨ evaluatorAhead ≠ []
      · refine .later trivial ?_ ?_
        · obtain ⟨role, next, step⟩ := (course.ofClosing true).progress ahead
          exact ⟨role, next, true, fun _ => rfl, step⟩
        · rintro role next ⟨closing, _, step⟩
          have onCourse := course.ofClosing closing
          cases role with
          | garbler =>
              by_cases through : garblerAhead = []
              · subst through
                cases (step_garbler_of_ended course.garbler.eq_of_nil).symm.trans step
              · obtain ⟨event, rest, rfl, left⟩ := onCourse.step_garbler through step
                exact inductionHypothesis _ (by simp) (left.ofClosing parties.closing) rfl
          | evaluator =>
              by_cases through : evaluatorAhead = []
              · subst through
                cases (step_evaluator_of_ended course.evaluator.eq_of_nil).symm.trans step
              · obtain ⟨event, rest, rfl, left⟩ := onCourse.step_evaluator through step
                exact inductionHypothesis _ (by simp) (left.ofClosing parties.closing) rfl
      · obtain ⟨rfl, rfl⟩ : garblerAhead = [] ∧ evaluatorAhead = [] := by
          simpa only [not_or, ne_eq, not_not] using ahead
        exact .now ⟨course.garbler.eq_of_nil, course.evaluator.eq_of_nil⟩

end Network

/-! ## A party that fails without a word -/

namespace Process

variable {σ ε α : Type}

/-- The process comes to an end with a failure unless it receives a message. -/
inductive Deprived : Process (Next σ (Except ε α)) → Prop
  | failed {error : ε} : Deprived (.done (.finish (.error error)))
  | send {message : Bytes} {next : Except SendFailure Unit → Process (Next σ (Except ε α))}
      (rest : ∀ outcome, Deprived (next outcome)) : Deprived (.send message next)
  | receive {next : Except ReceiveFailure Bytes → Process (Next σ (Except ε α))}
      (rest : ∀ failure, Deprived (next (.error failure))) : Deprived (.receive next)

/-- Sending some messages first makes no difference. -/
theorem Deprived.sendEach_bind {next : Except SendFailure Unit → Process (Next σ (Except ε α))}
    (rest : ∀ outcome, (next outcome).Deprived) (messages : List Bytes) :
    (sendEach messages >>= next).Deprived := by
  induction messages with
  | nil => exact rest (.ok ())
  | cons message others inductionHypothesis =>
      refine .send fun outcome => ?_
      cases outcome with
      | ok sent => exact inductionHypothesis
      | error failure => exact rest (.error failure)

/-- Neither does it make a difference that the messages are in chunks. -/
theorem Deprived.inChunks {process : Process (Next σ (Except ε α))} (deprived : process.Deprived) :
    process.inChunks.Deprived := by
  induction deprived with
  | failed => exact .failed
  | send rest inductionHypothesis => exact .sendEach_bind inductionHypothesis _
  | receive rest inductionHypothesis => exact .receive inductionHypothesis

end Process

namespace Network

variable {σ τ ε ζ α β : Type} {parties : Parties σ (Except ε α) τ (Except ζ β)}
  {network next : Network σ (Except ε α) τ (Except ζ β)} {connection : Connection} {error : ε}
  {process : Process (Next τ (Except ζ β))}

/-- Both parties have ended with a failure. -/
def BothFailed (network : Network σ (Except ε α) τ (Except ζ β)) : Prop :=
  (∃ error, network.garbler = .ended (.error error)) ∧
    ∃ error, network.evaluator = .ended (.error error)

/-- Nothing can be sent to a garbler that has hung up. -/
theorem step_evaluator_of_unsendable {parties : Parties σ α τ β} {network : Network σ α τ β}
    {message : Bytes} {rest : Except SendFailure Unit → Process (Next τ β)}
    (sends : network.evaluator = .running (.send message rest))
    (closed : network.connection.garblerClosed = true) :
    network.step parties .evaluator =
      some { network with evaluator := .running (rest (.error .closed)) } := by
  simp [step, sends, Connection.step, Connection.send, Connection.isClosed, Role.peer, closed]

/-- Nothing is received from a garbler that has hung up without a word. -/
theorem step_evaluator_of_unheard {parties : Parties σ α τ β} {network : Network σ α τ β}
    {rest : Except ReceiveFailure Bytes → Process (Next τ β)}
    (waits : network.evaluator = .running (.receive rest))
    (queue : network.connection.fromGarbler = [])
    (closed : network.connection.garblerClosed = true) :
    network.step parties .evaluator =
      some { network with evaluator := .running (rest (.error .closed)) } := by
  simp [step, waits, Connection.step, Connection.receive, Connection.sent, Connection.isClosed,
    Role.peer, queue, closed]

/-- While the garbler has ended, a run settles if it settles after the next step of the
evaluator. -/
theorem Settles.of_evaluator {ongoing goal : Network σ (Except ε α) τ (Except ζ β) → Prop}
    {value : Except ε α} {next : Bool → Network σ (Except ε α) τ (Except ζ β)}
    (ended : network.garbler = .ended value) (holds : ongoing network)
    (step : ∀ closing, network.step { parties with closing } .evaluator = some (next closing))
    (settles : ∀ closing, Settles parties ongoing goal (next closing)) :
    Settles parties ongoing goal network := by
  refine .later holds ⟨.evaluator, _, true, fun _ => rfl, step true⟩ fun role after moves => ?_
  obtain ⟨closing, _, stepped⟩ := moves
  cases role with
  | garbler => cases (step_garbler_of_ended ended).symm.trans stepped
  | evaluator =>
      cases (step closing).symm.trans stepped
      exact settles closing

/-- A party that needs a message fails when the other one has failed and hung up. -/
theorem settles_of_failed (deprived : process.Deprived) (nothing : connection.fromGarbler = [])
    (closed : connection.garblerClosed = true) :
    Settles parties (fun _ => True) BothFailed
      ⟨connection, .ended (.error error), .running process⟩ := by
  induction deprived generalizing connection with
  | failed =>
      exact .of_evaluator rfl trivial (fun closing => rfl) fun closing =>
        .now ⟨⟨_, rfl⟩, ⟨_, rfl⟩⟩
  | send rest inductionHypothesis =>
      exact .of_evaluator rfl trivial (fun closing => step_evaluator_of_unsendable rfl closed)
        fun closing => inductionHypothesis (.error .closed) nothing closed
  | receive rest inductionHypothesis =>
      exact .of_evaluator rfl trivial (fun closing => step_evaluator_of_unheard rfl nothing closed)
        fun closing => inductionHypothesis .closed nothing closed

/-- While the garbler is about to end with a failure, a run settles if it settles after the garbler
has hung up and after every step of the evaluator. -/
theorem Settles.of_failing_garbler {goal : Network σ (Except ε α) τ (Except ζ β) → Prop}
    {evaluator : Activity τ (Except ζ β)}
    (afterwards : Settles parties (fun _ => True) goal
      ⟨connection.close .garbler, .ended (.error error), evaluator⟩)
    (before : ∀ closing next, Network.step { parties with closing }
      ⟨connection, .running (.done (.finish (.error error))), evaluator⟩ .evaluator = some next →
        Settles parties (fun _ => True) goal next) :
    Settles parties (fun _ => True) goal
      ⟨connection, .running (.done (.finish (.error error))), evaluator⟩ := by
  refine .later trivial ⟨.garbler, _, true, fun _ => rfl, rfl⟩ fun role next moves => ?_
  obtain ⟨closing, failing, step⟩ := moves
  cases role with
  | garbler =>
      obtain rfl := failing trivial
      cases step
      exact afterwards
  | evaluator => exact before closing next step

/-- If one party fails without a word and the other one needs a message, then both fail. -/
theorem settles_of_failing (deprived : process.Deprived) (nothing : connection.fromGarbler = []) :
    Settles parties (fun _ => True) BothFailed
      ⟨connection, .running (.done (.finish (.error error))), .running process⟩ := by
  induction deprived generalizing connection with
  | failed =>
      refine .of_failing_garbler (settles_of_failed .failed nothing rfl) fun closing next step => ?_
      cases step
      refine .of_failing_garbler (.now ⟨⟨_, rfl⟩, ⟨_, rfl⟩⟩) fun closing next step => ?_
      cases step
  | send rest inductionHypothesis =>
      refine .of_failing_garbler (settles_of_failed (.send rest) nothing rfl)
        fun closing next step => ?_
      obtain ⟨⟨after, activity⟩, stepped, rfl⟩ := Option.map_eq_some_iff.mp step
      obtain ⟨⟨outcome, left⟩, sent, same⟩ := Option.map_eq_some_iff.mp stepped
      cases same
      rcases Connection.send_eq_some_iff.mp sent with ⟨_, rfl, rfl⟩ | ⟨_, _, rfl, rfl⟩
      · exact inductionHypothesis _ nothing
      · exact inductionHypothesis _ nothing
  | receive rest inductionHypothesis =>
      refine .of_failing_garbler (settles_of_failed (.receive rest) nothing rfl)
        fun closing next step => ?_
      obtain ⟨⟨after, activity⟩, stepped, rfl⟩ := Option.map_eq_some_iff.mp step
      obtain ⟨⟨outcome, left⟩, received, same⟩ := Option.map_eq_some_iff.mp stepped
      cases same
      rcases Connection.receive_eq_some_iff.mp received with ⟨message, others, queue, _⟩ |
        ⟨_, _, rfl, rfl⟩
      · cases nothing.symm.trans queue
      · exact inductionHypothesis _ nothing

/-- The garbler sends nothing any more, and has sent nothing that is still on its way. -/
def GarblerMute (network : Network σ (Except ε α) τ (Except ζ β)) : Prop :=
  (∃ outcome, network.garbler = .running (.done (.finish outcome)) ∨
    network.garbler = .ended outcome) ∧ network.connection.fromGarbler = []

/-- A garbler that is about to end, and has nothing on its way, remains mute. -/
theorem GarblerMute.of_moves (mute : network.GarblerMute) {role : Role}
    (moves : Moves parties network role next) : next.GarblerMute := by
  obtain ⟨connection, garbler, evaluator⟩ := network
  obtain ⟨⟨outcome, ends⟩, nothing⟩ := mute
  obtain ⟨closing, _, step⟩ := moves
  cases role with
  | garbler =>
      rcases ends with rfl | rfl
      · cases step
        refine ⟨⟨outcome, .inr rfl⟩, ?_⟩
        cases closing <;> exact nothing
      · cases step
  | evaluator =>
      obtain ⟨⟨event, acts, admits⟩, same⟩ := step_evaluator_iff.mp step
      have left := admits.queues.2.symm.trans nothing
      exact ⟨⟨outcome, same ▸ ends⟩, (List.append_eq_nil_iff.mp left).2⟩

end Network

end Garbling
