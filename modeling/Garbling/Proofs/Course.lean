import Mathlib
import Garbling.Proofs.Interleaving

/-!
# Runs on course

A network is on course if what is ahead of both parties fits together. Whatever step is taken,
the network stays on course with less ahead of it, and some step can be taken until both
parties are through. So a run that starts on course ends the way its course ends, in every
order of steps.
-/

namespace Garbling

namespace Connection

variable {connection : Connection} {role : Role} {messages : List Bytes}

@[simp] theorem sent_setSent : (connection.setSent messages role).sent role = messages := by
  cases role <;> rfl

@[simp] theorem sent_setSent_peer :
    (connection.setSent messages role).sent role.peer = connection.sent role.peer := by
  cases role <;> rfl

@[simp] theorem sent_peer_setSent :
    (connection.setSent messages role.peer).sent role = connection.sent role := by
  cases role <;> rfl

@[simp] theorem sent_close (other : Role) :
    (connection.close role).sent other = connection.sent other := by
  cases role <;> cases other <;> rfl

@[simp] theorem isClosed_setSent (other : Role) :
    (connection.setSent messages role).isClosed other = connection.isClosed other := by
  cases role <;> cases other <;> rfl

@[simp] theorem isClosed_close_peer :
    (connection.close role).isClosed role.peer = connection.isClosed role.peer := by
  cases role <;> rfl

@[simp] theorem peer_peer : role.peer.peer = role := by
  cases role <;> rfl

theorem send_eq_some_iff {message : Bytes} {outcome : Except SendFailure Unit}
    {after : Connection} :
    connection.send role role.peer.party message = some (outcome, after) ↔
      connection.isClosed role.peer = true ∧ outcome = .error .closed ∧ after = connection ∨
      connection.isClosed role.peer = false ∧ (connection.sent role).length < queueCapacity ∧
        outcome = .ok () ∧ after = connection.setSent (connection.sent role ++ [message]) role := by
  unfold send
  simp only [ne_eq, not_true, if_false]
  cases connection.isClosed role.peer with
  | true => simp [eq_comm]
  | false =>
      simp only [Bool.false_eq_true, if_false]
      split
      · next room => simp [room, eq_comm]
      · next full => simp [full]

theorem receive_eq_some_iff {outcome : Except ReceiveFailure Bytes} {after : Connection} :
    connection.receive role role.peer.party = some (outcome, after) ↔
      (∃ message rest, connection.sent role.peer = message :: rest ∧ outcome = .ok message ∧
        after = connection.setSent rest role.peer) ∨
      connection.sent role.peer = [] ∧ connection.isClosed role.peer = true ∧
        outcome = .error .closed ∧ after = connection := by
  unfold receive
  simp only [ne_eq, not_true, if_false]
  cases connection.sent role.peer with
  | cons message rest =>
      simp only [Option.some.injEq, Prod.mk.injEq, List.cons.injEq, reduceCtorEq, false_and,
        or_false]
      constructor
      · rintro ⟨rfl, rfl⟩
        exact ⟨message, rest, ⟨rfl, rfl⟩, rfl, rfl⟩
      · rintro ⟨_, _, ⟨rfl, rfl⟩, rfl, rfl⟩
        exact ⟨rfl, rfl⟩
  | nil =>
      cases connection.isClosed role.peer with
      | true => simp [eq_comm]
      | false => simp

variable {σ τ α : Type} {rounds : Rounds σ α} {closing : Bool} {after : Connection}
  {activity next goal : Activity σ α} {event head : Event σ} {own : List (Event σ)}
  {other : List (Event τ)}

/-- What a party goes through next is the next part of its course. -/
theorem Admits.on_course (admits : connection.Admits role closing event after)
    (acts : activity.Acts rounds event next) (follows : activity.Follows rounds (head :: own) goal)
    (fits : Fits (connection.sent role) (connection.sent role.peer) (head :: own) other)
    (open_ : connection.isClosed role.peer = true → other = []) :
    event = head ∧ next.Follows rounds own goal ∧
      Fits (after.sent role) (after.sent role.peer) own other ∧
        after.isClosed role.peer = connection.isClosed role.peer ∧
          (after.isClosed role = connection.isClosed role ∨ own = []) := by
  obtain _ | ⟨ahead, others⟩ := follows
  cases acts with
  | began =>
      cases ahead
      cases admits
      exact ⟨rfl, others, fits.of_silent (show (Event.began _).Silent from trivial), rfl, .inl rfl⟩
  | ended =>
      cases ahead
      cases admits
      have same : Fits (connection.sent role) (connection.sent role.peer) own other :=
        fits.of_silent (show Event.ended.Silent from trivial)
      refine ⟨rfl, others, ?_, ?_, .inr others.of_ended.1⟩
      · cases closing <;> simpa using same
      · cases closing <;> simp
  | sent =>
      cases ahead
      cases admits with
      | sent sent =>
          rcases send_eq_some_iff.mp sent with ⟨closed, _, _⟩ | ⟨_, room, rfl, rfl⟩
          · rw [open_ closed] at fits
            exact fits.symm.not_sends.elim
          · obtain ⟨rfl, shorter⟩ := fits.of_sends room
            exact ⟨rfl, others, by simpa using shorter, by simp, .inl (by simp)⟩
  | received =>
      cases ahead
      cases admits with
      | received received =>
          rcases receive_eq_some_iff.mp received with
            ⟨message, rest, queue, rfl, rfl⟩ | ⟨queue, closed, _, _⟩
          · rw [queue] at fits
            obtain ⟨rfl, shorter⟩ := fits.of_receives
            exact ⟨rfl, others, by simpa using shorter, by simp, .inl (by simp)⟩
          · rw [open_ closed, queue] at fits
            exact fits.symm.not_receives.elim

/-- A silent event is always admitted. -/
theorem exists_admits_silent (silent : event.Silent) :
    ∃ after, connection.Admits role closing event after := by
  cases event with
  | exchanged exchange => exact silent.elim
  | began state => exact ⟨_, .began⟩
  | ended => exact ⟨_, .ended⟩

theorem admits_out {message : Bytes} (open_ : connection.isClosed role.peer = false)
    (room : (connection.sent role).length < queueCapacity) :
    ∃ after, connection.Admits role closing (.out message : Event σ) after :=
  ⟨_, .sent (send_eq_some_iff.mpr (.inr ⟨open_, room, rfl, rfl⟩))⟩

theorem admits_into (role : Role) {message : Bytes} {rest : List Bytes}
    (queue : connection.sent role.peer = message :: rest) :
    ∃ after, connection.Admits role closing (.into message : Event σ) after :=
  ⟨_, .received (receive_eq_some_iff.mpr (.inl ⟨message, rest, queue, rfl, rfl⟩))⟩

end Connection

namespace Network

variable {σ α τ β : Type} {parties : Parties σ α τ β} {network next : Network σ α τ β}
  {garblerAhead : List (Event σ)} {evaluatorAhead : List (Event τ)} {garblerGoal : Activity σ α}
  {evaluatorGoal : Activity τ β}

/-- What is ahead of both parties fits together and leads them to the given activities. -/
structure OnCourse (parties : Parties σ α τ β) (network : Network σ α τ β)
    (garblerAhead : List (Event σ)) (evaluatorAhead : List (Event τ)) (garblerGoal : Activity σ α)
    (evaluatorGoal : Activity τ β) : Prop where
  garbler : network.garbler.Follows parties.garbler garblerAhead garblerGoal
  evaluator : network.evaluator.Follows parties.evaluator evaluatorAhead evaluatorGoal
  fits : Fits network.connection.fromGarbler network.connection.fromEvaluator garblerAhead
    evaluatorAhead
  garblerOpen : network.connection.garblerClosed = true → garblerAhead = []
  evaluatorOpen : network.connection.evaluatorClosed = true → evaluatorAhead = []

theorem step_garbler_of_ended {value : α} (ended : network.garbler = .ended value) :
    network.step parties .garbler = none := by
  simp only [step, ended, Connection.step, Option.map_none]

theorem step_evaluator_of_ended {value : β} (ended : network.evaluator = .ended value) :
    network.step parties .evaluator = none := by
  simp only [step, ended, Connection.step, Option.map_none]

/-- An evaluator that waits for a message cannot go on while there is none. -/
theorem step_evaluator_of_waiting {waiting : Except ReceiveFailure Bytes → Process (Next τ β)}
    (waits : network.evaluator = .running (.receive waiting))
    (queue : network.connection.fromGarbler = [])
    (open_ : network.connection.garblerClosed = false) :
    network.step parties .evaluator = none := by
  simp [step, waits, Connection.step, Connection.receive, Connection.sent, Connection.isClosed,
    Role.peer, queue, open_]

/-- A garbler that waits for a message cannot go on while there is none. -/
theorem step_garbler_of_waiting {waiting : Except ReceiveFailure Bytes → Process (Next σ α)}
    (waits : network.garbler = .running (.receive waiting))
    (queue : network.connection.fromEvaluator = [])
    (open_ : network.connection.evaluatorClosed = false) :
    network.step parties .garbler = none := by
  simp [step, waits, Connection.step, Connection.receive, Connection.sent, Connection.isClosed,
    Role.peer, queue, open_]

namespace OnCourse

/-- What the garbler goes through in a step is next on its course. -/
theorem event_garbler
    (course : OnCourse parties network garblerAhead evaluatorAhead garblerGoal evaluatorGoal)
    (ahead : garblerAhead ≠ []) {event : Event σ}
    (step : network.step parties .garbler = some next)
    (acts : network.garbler.Acts parties.garbler event next.garbler)
    (admits : network.connection.Admits .garbler parties.closing event next.connection) :
    ∃ rest, garblerAhead = event :: rest ∧
      OnCourse parties next rest evaluatorAhead garblerGoal evaluatorGoal := by
  obtain ⟨head, rest, rfl⟩ := List.exists_cons_of_ne_nil ahead
  obtain ⟨⟨after, activity⟩, _, rfl⟩ := Option.map_eq_some_iff.mp step
  obtain ⟨rfl, follows, fits, peer, own⟩ :=
    admits.on_course acts course.garbler course.fits course.evaluatorOpen
  refine ⟨rest, rfl, follows, course.evaluator, fits, ?_, ?_⟩
  · intro closed
    rcases own with same | through
    · have before := course.garblerOpen (same.symm.trans closed)
      simp at before
    · exact through
  · intro closed
    exact course.evaluatorOpen (peer.symm.trans closed)

/-- What the evaluator goes through in a step is next on its course. -/
theorem event_evaluator
    (course : OnCourse parties network garblerAhead evaluatorAhead garblerGoal evaluatorGoal)
    (ahead : evaluatorAhead ≠ []) {event : Event τ}
    (step : network.step parties .evaluator = some next)
    (acts : network.evaluator.Acts parties.evaluator event next.evaluator)
    (admits : network.connection.Admits .evaluator parties.closing event next.connection) :
    ∃ rest, evaluatorAhead = event :: rest ∧
      OnCourse parties next garblerAhead rest garblerGoal evaluatorGoal := by
  obtain ⟨head, rest, rfl⟩ := List.exists_cons_of_ne_nil ahead
  obtain ⟨⟨after, activity⟩, _, rfl⟩ := Option.map_eq_some_iff.mp step
  obtain ⟨rfl, follows, fits, peer, own⟩ :=
    admits.on_course acts course.evaluator course.fits.symm course.garblerOpen
  refine ⟨rest, rfl, course.garbler, follows, fits.symm, ?_, ?_⟩
  · intro closed
    exact course.garblerOpen (peer.symm.trans closed)
  · intro closed
    rcases own with same | through
    · have before := course.evaluatorOpen (same.symm.trans closed)
      simp at before
    · exact through

/-- A step of the garbler is on course. -/
theorem step_garbler
    (course : OnCourse parties network garblerAhead evaluatorAhead garblerGoal evaluatorGoal)
    (ahead : garblerAhead ≠ []) (step : network.step parties .garbler = some next) :
    ∃ event rest, garblerAhead = event :: rest ∧
      OnCourse parties next rest evaluatorAhead garblerGoal evaluatorGoal := by
  obtain ⟨⟨event, acts, admits⟩, _⟩ := step_garbler_iff.mp step
  exact ⟨event, course.event_garbler ahead step acts admits⟩

/-- A step of the evaluator is on course. -/
theorem step_evaluator
    (course : OnCourse parties network garblerAhead evaluatorAhead garblerGoal evaluatorGoal)
    (ahead : evaluatorAhead ≠ []) (step : network.step parties .evaluator = some next) :
    ∃ event rest, evaluatorAhead = event :: rest ∧
      OnCourse parties next garblerAhead rest garblerGoal evaluatorGoal := by
  obtain ⟨⟨event, acts, admits⟩, _⟩ := step_evaluator_iff.mp step
  exact ⟨event, course.event_evaluator ahead step acts admits⟩

/-- The garbler can take a step whose event the connection admits. -/
theorem can_step_garbler {event : Event σ} {rest : List (Event σ)} {after : Connection}
    (course : OnCourse parties network (event :: rest) evaluatorAhead garblerGoal evaluatorGoal)
    (admits : network.connection.Admits .garbler parties.closing event after) :
    ∃ role next, network.step parties role = some next := by
  obtain _ | ⟨acts, _⟩ := course.garbler
  exact ⟨.garbler, _, Option.map_eq_some_iff.mpr
    ⟨_, Connection.step_eq_some_iff.mpr ⟨event, acts, admits⟩, rfl⟩⟩

/-- The evaluator can take a step whose event the connection admits. -/
theorem can_step_evaluator {event : Event τ} {rest : List (Event τ)} {after : Connection}
    (course : OnCourse parties network garblerAhead (event :: rest) garblerGoal evaluatorGoal)
    (admits : network.connection.Admits .evaluator parties.closing event after) :
    ∃ role next, network.step parties role = some next := by
  obtain _ | ⟨acts, _⟩ := course.evaluator
  exact ⟨.evaluator, _, Option.map_eq_some_iff.mpr
    ⟨_, Connection.step_eq_some_iff.mpr ⟨event, acts, admits⟩, rfl⟩⟩

/-- While something is ahead of a party, some party can take a step. -/
theorem progress (course : OnCourse parties network garblerAhead evaluatorAhead garblerGoal evaluatorGoal)
    (ahead : garblerAhead ≠ [] ∨ evaluatorAhead ≠ []) :
    ∃ role next, network.step parties role = some next := by
  obtain ⟨connection, garblerActivity, evaluatorActivity⟩ := network
  have fits := course.fits
  simp only at fits
  generalize toEvaluator : connection.fromGarbler = u at fits
  generalize toGarbler : connection.fromEvaluator = v at fits
  cases fits with
  | nil => simp at ahead
  | garblerSilent silent fits =>
      obtain ⟨after, admits⟩ := Connection.exists_admits_silent silent
      exact course.can_step_garbler admits
  | evaluatorSilent silent fits =>
      obtain ⟨after, admits⟩ := Connection.exists_admits_silent silent
      exact course.can_step_evaluator admits
  | garblerSends room fits =>
      have open_ : connection.isClosed Role.garbler.peer = false := by
        by_contra closed
        have through := course.evaluatorOpen ((Bool.not_eq_false _).mp closed)
        rw [through] at fits
        simpa using fits.symm.queue_eq_nil
      have queue : connection.sent .garbler = u := toEvaluator
      obtain ⟨after, admits⟩ := Connection.admits_out open_ (queue ▸ room)
      exact course.can_step_garbler admits
  | evaluatorReceives fits =>
      obtain ⟨after, admits⟩ := Connection.admits_into .evaluator toEvaluator
      exact course.can_step_evaluator admits
  | evaluatorSends room fits =>
      have open_ : connection.isClosed Role.evaluator.peer = false := by
        by_contra closed
        have through := course.garblerOpen ((Bool.not_eq_false _).mp closed)
        rw [through] at fits
        simpa using fits.queue_eq_nil
      have queue : connection.sent .evaluator = v := toGarbler
      obtain ⟨after, admits⟩ := Connection.admits_out open_ (queue ▸ room)
      exact course.can_step_evaluator admits
  | garblerReceives fits =>
      obtain ⟨after, admits⟩ := Connection.admits_into .garbler toGarbler
      exact course.can_step_garbler admits

/-- On a course to the end of both parties, what a run goes through is the beginning of what was
ahead, and the rest of it is still ahead. -/
theorem of_run {first : α} {second : β} {garbler : List (Event σ)} {evaluator : List (Event τ)}
    (course : OnCourse parties network garblerAhead evaluatorAhead (.ended first) (.ended second))
    (run : Run parties network garbler evaluator next) :
    ∃ garblerRest evaluatorRest, garblerAhead = garbler ++ garblerRest ∧
      evaluatorAhead = evaluator ++ evaluatorRest ∧
        OnCourse parties next garblerRest evaluatorRest (.ended first) (.ended second) := by
  induction run generalizing garblerAhead evaluatorAhead with
  | refl => exact ⟨garblerAhead, evaluatorAhead, rfl, rfl, course⟩
  | garbler step acts admits rest inductionHypothesis =>
      have ahead : garblerAhead ≠ [] := by
        rintro rfl
        cases (step_garbler_of_ended course.garbler.eq_of_nil).symm.trans step
      obtain ⟨others, rfl, onCourse⟩ := course.event_garbler ahead step acts admits
      obtain ⟨garblerRest, evaluatorRest, rfl, rfl, left⟩ := inductionHypothesis onCourse
      exact ⟨garblerRest, evaluatorRest, rfl, rfl, left⟩
  | evaluator step acts admits rest inductionHypothesis =>
      have ahead : evaluatorAhead ≠ [] := by
        rintro rfl
        cases (step_evaluator_of_ended course.evaluator.eq_of_nil).symm.trans step
      obtain ⟨others, rfl, onCourse⟩ := course.event_evaluator ahead step acts admits
      obtain ⟨garblerRest, evaluatorRest, rfl, rfl, left⟩ := inductionHypothesis onCourse
      exact ⟨garblerRest, evaluatorRest, rfl, rfl, left⟩

/-- On a course to the end of both parties, a run in which the garbler has ended has gone through all
that was ahead of the garbler. -/
theorem garbler_of_run {first result : α} {second : β} {garbler : List (Event σ)}
    {evaluator : List (Event τ)}
    (course : OnCourse parties network garblerAhead evaluatorAhead (.ended first) (.ended second))
    (run : Run parties network garbler evaluator next) (ended : next.garbler = .ended result) :
    garblerAhead = garbler := by
  obtain ⟨garblerRest, _, rfl, _, left⟩ := course.of_run run
  have follows := left.garbler
  rw [ended] at follows
  rw [follows.of_ended.1, List.append_nil]

/-- On a course to the end of both parties, a run in which the evaluator has ended has gone through
all that was ahead of the evaluator. -/
theorem evaluator_of_run {first : α} {second result : β} {garbler : List (Event σ)}
    {evaluator : List (Event τ)}
    (course : OnCourse parties network garblerAhead evaluatorAhead (.ended first) (.ended second))
    (run : Run parties network garbler evaluator next) (ended : next.evaluator = .ended result) :
    evaluatorAhead = evaluator := by
  obtain ⟨_, evaluatorRest, _, rfl, left⟩ := course.of_run run
  have follows := left.evaluator
  rw [ended] at follows
  rw [follows.of_ended.1, List.append_nil]

/-- Whatever order of steps is taken, a run on course comes to a goal if, short of it, something is
ahead of a party and neither party goes beyond its course. -/
theorem leads_until {ongoing goal : Network σ α τ β → Prop}
    (course : OnCourse parties network garblerAhead evaluatorAhead garblerGoal evaluatorGoal)
    (either : ∀ {network : Network σ α τ β} {garblerAhead : List (Event σ)}
      {evaluatorAhead : List (Event τ)},
      OnCourse parties network garblerAhead evaluatorAhead garblerGoal evaluatorGoal →
        goal network ∨ ongoing network ∧ (garblerAhead ≠ [] ∨ evaluatorAhead ≠ []) ∧
          (garblerAhead = [] → network.step parties .garbler = none) ∧
          (evaluatorAhead = [] → network.step parties .evaluator = none)) :
    Leads parties ongoing goal network := by
  induction size : garblerAhead.length + evaluatorAhead.length using Nat.strong_induction_on
    generalizing network garblerAhead evaluatorAhead with
  | _ size inductionHypothesis =>
      subst size
      rcases either course with reached | ⟨holds, ahead, garblerStays, evaluatorStays⟩
      · exact .now reached
      · refine .later holds (course.progress ahead) fun role next step => ?_
        cases role with
        | garbler =>
            by_cases through : garblerAhead = []
            · cases (garblerStays through).symm.trans step
            · obtain ⟨event, rest, rfl, onCourse⟩ := course.step_garbler through step
              exact inductionHypothesis _ (by simp) onCourse rfl
        | evaluator =>
            by_cases through : evaluatorAhead = []
            · cases (evaluatorStays through).symm.trans step
            · obtain ⟨event, rest, rfl, onCourse⟩ := course.step_evaluator through step
              exact inductionHypothesis _ (by simp) onCourse rfl

/-- Whatever order of steps is taken, a run on course to the end of both parties stays so until
they have ended. -/
theorem leads_on_course {first : α} {second : β}
    (course : OnCourse parties network garblerAhead evaluatorAhead (.ended first)
      (.ended second)) :
    Leads parties
      (fun network => ∃ garblerAhead evaluatorAhead,
        OnCourse parties network garblerAhead evaluatorAhead (.ended first) (.ended second))
      (fun network => network.garbler = .ended first ∧ network.evaluator = .ended second)
      network := by
  refine course.leads_until fun {network garblerAhead evaluatorAhead} course => ?_
  by_cases ahead : garblerAhead ≠ [] ∨ evaluatorAhead ≠ []
  · refine .inr ⟨⟨_, _, course⟩, ahead, ?_, ?_⟩
    · rintro rfl
      exact step_garbler_of_ended course.garbler.eq_of_nil
    · rintro rfl
      exact step_evaluator_of_ended course.evaluator.eq_of_nil
  · obtain ⟨rfl, rfl⟩ : garblerAhead = [] ∧ evaluatorAhead = [] := by
      simpa only [not_or, ne_eq, not_not] using ahead
    exact .inl ⟨course.garbler.eq_of_nil, course.evaluator.eq_of_nil⟩

/-- Whatever order of steps is taken, a run on course to the end of both parties ends so. -/
theorem leads {first : α} {second : β}
    (course : OnCourse parties network garblerAhead evaluatorAhead (.ended first)
      (.ended second)) :
    Leads parties (fun _ => True)
      (fun network => network.garbler = .ended first ∧ network.evaluator = .ended second)
      network :=
  course.leads_on_course.mono fun _ _ => trivial

/-- Whatever order of steps is taken, on a course to the end of the garbler and to a point where
the evaluator waits for a message, the garbler ends before the evaluator does. -/
theorem leads_to_end_of_garbler {first : α}
    {waiting : Except ReceiveFailure Bytes → Process (Next τ β)}
    (course : OnCourse parties network garblerAhead evaluatorAhead (.ended first)
      (.running (.receive waiting))) :
    Leads parties (fun network => network.garbler.result? = none ∧ network.evaluator.result? = none)
      (fun network => network.garbler = .ended first ∧ network.evaluator.result? = none)
      network := by
  refine course.leads_until fun {network garblerAhead evaluatorAhead} course => ?_
  have running := course.evaluator.result?_eq_none rfl
  by_cases through : garblerAhead = []
  · subst through
    exact .inl ⟨course.garbler.eq_of_nil, running⟩
  · refine .inr ⟨⟨course.garbler.result?_of_ahead through, running⟩, .inl through,
      fun nothing => absurd nothing through, ?_⟩
    rintro rfl
    have open_ : network.connection.garblerClosed = false := by
      by_contra closed
      exact through (course.garblerOpen ((Bool.not_eq_false _).mp closed))
    exact step_evaluator_of_waiting course.evaluator.eq_of_nil course.fits.symm.queue_eq_nil open_

/-- Whatever order of steps is taken, on a course to the end of the evaluator and to a point where
the garbler waits for a message, the evaluator ends before the garbler does. -/
theorem leads_to_end_of_evaluator {second : β}
    {waiting : Except ReceiveFailure Bytes → Process (Next σ α)}
    (course : OnCourse parties network garblerAhead evaluatorAhead (.running (.receive waiting))
      (.ended second)) :
    Leads parties (fun network => network.garbler.result? = none ∧ network.evaluator.result? = none)
      (fun network => network.garbler.result? = none ∧ network.evaluator = .ended second)
      network := by
  refine course.leads_until fun {network garblerAhead evaluatorAhead} course => ?_
  have running := course.garbler.result?_eq_none rfl
  by_cases through : evaluatorAhead = []
  · subst through
    exact .inl ⟨running, course.evaluator.eq_of_nil⟩
  · refine .inr ⟨⟨running, course.evaluator.result?_of_ahead through⟩, .inr through, ?_,
      fun nothing => absurd nothing through⟩
    rintro rfl
    have open_ : network.connection.evaluatorClosed = false := by
      by_contra closed
      exact through (course.evaluatorOpen ((Bool.not_eq_false _).mp closed))
    exact step_garbler_of_waiting course.garbler.eq_of_nil course.fits.queue_eq_nil open_

end OnCourse

end Network

end Garbling
