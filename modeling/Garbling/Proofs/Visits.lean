import Mathlib
import Garbling.Proofs.Together

/-!
# The rounds that a party visits

What a party goes through until it ends is divided into rounds: in each of them it makes some
exchanges, and then it ends or begins the next one. A round that a session makes tells how the
session has succeeded.
-/

namespace Garbling

variable {σ α τ β : Type} {rounds : Rounds σ α} {state next : σ} {value : α}
  {exchanges : List Exchange} {visited : List (σ × List Exchange)} {events : List (Event σ)}

/-- The party visits the given rounds, makes the given exchanges in each, and ends with the
value. -/
inductive Rounds.Visits (rounds : Rounds σ α) : σ → List (σ × List Exchange) → α → Prop
  | finish {state : σ} {exchanges : List Exchange} {value : α}
      (follows : (rounds state).Follows exchanges (.finish value)) :
      Visits rounds state [(state, exchanges)] value
  | again {state next : σ} {exchanges : List Exchange} {visited : List (σ × List Exchange)}
      {value : α} (follows : (rounds state).Follows exchanges (.again next))
      (others : Visits rounds next visited value) :
      Visits rounds state ((state, exchanges) :: visited) value

/-- All that a party goes through when it visits some rounds. -/
def Event.ofVisited : List (σ × List Exchange) → List (Event σ)
  | [] => [.ended]
  | [(_, exchanges)] => exchanges.map .exchanged ++ [.ended]
  | (_, exchanges) :: (next, others) :: visited =>
      exchanges.map .exchanged ++ .began next :: ofVisited ((next, others) :: visited)

/-- The messages that were received in the course of some exchanges. -/
def Exchange.incoming (exchanges : List Exchange) : List Bytes :=
  exchanges.filterMap fun
    | .received (.ok message) => some message
    | _ => none

theorem Exchange.incoming_append (first rest : List Exchange) :
    incoming (first ++ rest) = incoming first ++ incoming rest :=
  List.filterMap_append

theorem Event.received_exchanged (exchanges : List Exchange) :
    Event.received (exchanges.map Event.exchanged : List (Event σ)) =
      Exchange.incoming exchanges := by
  rw [Event.received, List.filterMap_map]
  apply List.filterMap_congr
  intro exchange _
  rcases exchange with ⟨message, outcome⟩ | failure | message <;> rfl

/-- What is told of the exchanges of a party, and of nothing else, is told of its rounds. -/
theorem Event.filterMap_ofVisited {γ : Type} (tells : Event σ → Option γ)
    (began : ∀ state, tells (.began state) = none) (ended : tells .ended = none)
    (visited : List (σ × List Exchange)) :
    (ofVisited visited).filterMap tells =
      ((visited.flatMap Prod.snd).map Event.exchanged).filterMap tells := by
  induction visited with
  | nil => exact List.filterMap_cons_none ended
  | cons visit others inductionHypothesis =>
      cases others with
      | nil =>
          rw [ofVisited, List.filterMap_append, List.filterMap_cons_none ended, List.filterMap_nil,
            List.append_nil, List.flatMap_singleton]
      | cons next visited =>
          rw [ofVisited, List.filterMap_append, List.filterMap_cons_none (began _),
            inductionHypothesis, ← List.filterMap_append, ← List.map_append, ← List.flatMap_cons]

/-- A party has received what it has received in its rounds. -/
theorem Event.received_ofVisited (visited : List (σ × List Exchange)) :
    Event.received (ofVisited visited) = Exchange.incoming (visited.flatMap Prod.snd) :=
  (filterMap_ofVisited _ (fun _ => rfl) rfl visited).trans (received_exchanged _)

/-- Where a party is in its rounds: in the first one, at its end, or in a later one. -/
theorem Activity.Follows.of_running {process : Process (Next σ α)} {activity : Activity σ α}
    (follows : (Activity.running process).Follows rounds events activity) :
    ∃ exchanges rest, events = exchanges.map .exchanged ++ rest ∧
      ((∃ goal, process.Reaches exchanges goal ∧ rest = [] ∧ activity = .running goal) ∨
        (∃ value, process.Follows exchanges (.finish value) ∧ rest = [.ended] ∧
          activity = .ended value) ∨
        ∃ next more, process.Follows exchanges (.again next) ∧ rest = .began next :: more ∧
          (Activity.running (rounds next)).Follows rounds more activity) := by
  generalize start : Activity.running process = first at follows
  induction follows generalizing process with
  | refl => exact ⟨[], [], rfl, .inl ⟨process, .refl, rfl, start.symm⟩⟩
  | step acts others inductionHypothesis =>
      subst start
      cases acts with
      | began => exact ⟨[], _, rfl, .inr (.inr ⟨_, _, .refl, rfl, others⟩)⟩
      | ended =>
          obtain ⟨rfl, rfl⟩ := others.of_ended
          exact ⟨[], _, rfl, .inr (.inl ⟨_, .refl, rfl, rfl⟩)⟩
      | sent =>
          obtain ⟨exchanges, rest, rfl, place⟩ := inductionHypothesis rfl
          refine ⟨_ :: exchanges, rest, rfl, ?_⟩
          rcases place with ⟨goal, reaches, rfl, rfl⟩ | ⟨value, follows, rfl, rfl⟩ |
            ⟨next, more, follows, rfl, continued⟩
          · exact .inl ⟨goal, .send reaches, rfl, rfl⟩
          · exact .inr (.inl ⟨value, .send follows, rfl, rfl⟩)
          · exact .inr (.inr ⟨next, more, .send follows, rfl, continued⟩)
      | received =>
          obtain ⟨exchanges, rest, rfl, place⟩ := inductionHypothesis rfl
          refine ⟨_ :: exchanges, rest, rfl, ?_⟩
          rcases place with ⟨goal, reaches, rfl, rfl⟩ | ⟨value, follows, rfl, rfl⟩ |
            ⟨next, more, follows, rfl, continued⟩
          · exact .inl ⟨goal, .receive reaches, rfl, rfl⟩
          · exact .inr (.inl ⟨value, .receive follows, rfl, rfl⟩)
          · exact .inr (.inr ⟨next, more, .receive follows, rfl, continued⟩)

/-- The first round of a party that ends. -/
theorem Activity.Follows.exists_round {process : Process (Next σ α)}
    (follows : (Activity.running process).Follows rounds events (.ended value)) :
    ∃ exchanges rest, events = exchanges.map .exchanged ++ rest ∧
      ((process.Follows exchanges (.finish value) ∧ rest = [.ended]) ∨
        ∃ next more, process.Follows exchanges (.again next) ∧ rest = .began next :: more ∧
          (Activity.running (rounds next)).Follows rounds more (.ended value)) := by
  obtain ⟨exchanges, rest, split, place⟩ := follows.of_running
  refine ⟨exchanges, rest, split, ?_⟩
  rcases place with ⟨goal, _, _, same⟩ | ⟨value, finishes, last, same⟩ | later
  · cases same
  · cases same
    exact .inl ⟨finishes, last⟩
  · exact .inr later

/-- A party that ends has visited some rounds. -/
theorem Activity.Follows.visits
    (follows : (Activity.running (rounds state)).Follows rounds events (.ended value)) :
    ∃ visited, rounds.Visits state visited value ∧ events = Event.ofVisited visited := by
  induction count : events.length using Nat.strong_induction_on generalizing state events with
  | _ count inductionHypothesis =>
      subst count
      obtain ⟨exchanges, rest, rfl, ⟨reaches, rfl⟩ | ⟨next, more, reaches, rfl, continued⟩⟩ :=
        follows.exists_round
      · exact ⟨_, .finish reaches, rfl⟩
      · obtain ⟨visited, visits, rfl⟩ :=
          inductionHypothesis _ (by simp; omega) continued rfl
        refine ⟨_, .again reaches visits, ?_⟩
        cases visits with
        | finish => rfl
        | again => rfl

/-- A party comes to each round that it visits. -/
theorem Rounds.Visits.comes_to {before after : List (σ × List Exchange)}
    (visits : rounds.Visits state (before ++ (next, exchanges) :: after) value) :
    ∃ events, (Activity.running (rounds state)).Follows rounds events
      (.running (rounds next)) := by
  induction before generalizing state with
  | nil => cases visits <;> exact ⟨[], .refl⟩
  | cons visit others inductionHypothesis =>
      generalize visited_eq : visit :: others ++ (next, exchanges) :: after = visited at visits
      cases visits with
      | finish => simp at visited_eq
      | again follows visits =>
          obtain ⟨_, rfl⟩ := List.cons.inj visited_eq
          obtain ⟨events, comes⟩ := inductionHypothesis visits
          exact ⟨_, (Activity.Follows.of_reaches follows).trans (.step .began comes)⟩

namespace Session

variable {γ φ : Type} {session : Session τ (Next γ Outputs)} {start : τ} {wrap : τ → γ → φ}

/-- A round ends with outputs if its session does. -/
theorem toRound_follows_finish {outputs : Outputs} :
    (session.toRound start wrap).Follows exchanges (.finish (.ok outputs)) ↔
      ∃ final, session.Succeeds start exchanges (.finish outputs) final := by
  rw [toRound_eq_bind, Process.bind_follows]
  constructor
  · rintro ⟨first, rest, ⟨_ | _ | _, final⟩, rfl, one, two⟩
    · cases two
    · cases two
    · obtain ⟨rfl, same⟩ := Process.done_follows.mp two
      cases same
      rw [List.append_nil]
      exact ⟨final, one⟩
  · rintro ⟨final, succeeds⟩
    exact ⟨exchanges, [], _, (List.append_nil _).symm, succeeds, .refl⟩

/-- A round leads to another one if its session does. -/
theorem toRound_follows_again {next : φ} :
    (session.toRound start wrap).Follows exchanges (.again next) ↔
      ∃ phase final, session.Succeeds start exchanges (.again phase) final ∧
        next = wrap final phase := by
  rw [toRound_eq_bind, Process.bind_follows]
  constructor
  · rintro ⟨first, rest, ⟨_ | phase | _, final⟩, rfl, one, two⟩
    · cases two
    · obtain ⟨rfl, same⟩ := Process.done_follows.mp two
      cases same
      rw [List.append_nil]
      exact ⟨phase, final, one, rfl⟩
    · cases two
  · rintro ⟨phase, final, succeeds, rfl⟩
    exact ⟨exchanges, [], _, (List.append_nil _).symm, succeeds, .refl⟩

/-- A party that comes to its outputs from a round that a session makes has finished with the
session, or it has begun the next round. -/
theorem toRound_to_outputs {rounds : Rounds φ (Except Error Outputs)} {events : List (Event φ)}
    {outputs : Outputs}
    (follows : (Activity.running (session.toRound start wrap)).Follows rounds events
      (.ended (.ok outputs))) :
    ∃ exchanges rest, events = exchanges.map .exchanged ++ rest ∧
      ((∃ final, session.Succeeds start exchanges (.finish outputs) final) ∨
        ∃ phase final more, session.Succeeds start exchanges (.again phase) final ∧
          rest = .began (wrap final phase) :: more ∧
            (Activity.running (rounds (wrap final phase))).Follows rounds more
              (.ended (.ok outputs))) := by
  obtain ⟨exchanges, rest, split, ends⟩ := follows.exists_round
  refine ⟨exchanges, rest, split, ?_⟩
  rcases ends with ⟨finishes, _⟩ | ⟨next, more, continues, begins, others⟩
  · exact .inl (toRound_follows_finish.mp finishes)
  · obtain ⟨phase, final, succeeds, rfl⟩ := toRound_follows_again.mp continues
    exact .inr ⟨phase, final, more, succeeds, begins, others⟩

end Session

end Garbling
