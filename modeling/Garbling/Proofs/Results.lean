import Mathlib
import Garbling.Proofs.Together

/-!
# Runs with other results

What a party makes of its result once it has it makes no difference to the run. Two parties that
change their results go through the same events, in the same orders, as two that do not.
-/

namespace Garbling

variable {σ τ α β γ δ : Type}

/-- The end of a round, with another result if it is the last one. -/
def Next.mapResult (change : α → γ) : Next σ α → Next σ γ
  | .again state => .again state
  | .finish value => .finish (change value)

namespace Rounds

/-- The rounds of a party that changes its result. -/
def mapResult (change : α → γ) (rounds : Rounds σ α) : Rounds σ γ :=
  fun state => Next.mapResult change <$> rounds state

end Rounds

namespace Activity

/-- A party that changes its result, as far as the party itself has come. -/
def mapResult (change : α → γ) : Activity σ α → Activity σ γ
  | .running process => .running (Next.mapResult change <$> process)
  | .ended value => .ended (change value)

variable {rounds : Rounds σ α} {activity next : Activity σ α} {event : Event σ}

theorem Acts.mapResult (acts : activity.Acts rounds event next) (change : α → γ) :
    (activity.mapResult change).Acts (rounds.mapResult change) event (next.mapResult change) := by
  cases acts with
  | began => exact .began
  | ended => exact .ended
  | sent => exact .sent
  | received => exact .received

/-- Changing the result is no event of its own. -/
theorem Acts.of_mapResult {change : α → γ} {after : Activity σ γ}
    (acts : (activity.mapResult change).Acts (rounds.mapResult change) event after) :
    ∃ next, activity.Acts rounds event next ∧ after = next.mapResult change := by
  match activity, acts with
  | .running (.done (.again state)), .began => exact ⟨_, .began, rfl⟩
  | .running (.done (.finish value)), .ended => exact ⟨_, .ended, rfl⟩
  | .running (.send message others), .sent => exact ⟨_, .sent, rfl⟩
  | .running (.receive others), .received => exact ⟨_, .received, rfl⟩

end Activity

/-- Two parties that change their results. -/
def Parties.mapResults (garbler : α → γ) (evaluator : β → δ) (parties : Parties σ α τ β) :
    Parties σ γ τ δ :=
  { garbler := parties.garbler.mapResult garbler
    evaluator := parties.evaluator.mapResult evaluator
    closing := parties.closing }

namespace Network

/-- A network of two parties that change their results, as far as the parties themselves have
come. -/
def mapResults (garbler : α → γ) (evaluator : β → δ) (network : Network σ α τ β) :
    Network σ γ τ δ :=
  ⟨network.connection, network.garbler.mapResult garbler, network.evaluator.mapResult evaluator⟩

variable {parties : Parties σ α τ β} {network next final : Network σ α τ β} {garbler : α → γ}
  {evaluator : β → δ} {garblerEvents : List (Event σ)} {evaluatorEvents : List (Event τ)}

theorem Run.of_acts_garbler {event : Event σ}
    (rest : Run parties next garblerEvents evaluatorEvents final)
    (acts : network.garbler.Acts parties.garbler event next.garbler)
    (admits : network.connection.Admits .garbler parties.closing event next.connection)
    (still : next.evaluator = network.evaluator) :
    Run parties network (event :: garblerEvents) evaluatorEvents final :=
  .garbler (step_garbler_iff.mpr ⟨⟨event, acts, admits⟩, still⟩) acts admits rest

theorem Run.of_acts_evaluator {event : Event τ}
    (rest : Run parties next garblerEvents evaluatorEvents final)
    (acts : network.evaluator.Acts parties.evaluator event next.evaluator)
    (admits : network.connection.Admits .evaluator parties.closing event next.connection)
    (still : next.garbler = network.garbler) :
    Run parties network garblerEvents (event :: evaluatorEvents) final :=
  .evaluator (step_evaluator_iff.mpr ⟨⟨event, acts, admits⟩, still⟩) acts admits rest

/-- What the parties make of their results can be put off until the end of a run. -/
theorem Run.mapResults (run : Run parties network garblerEvents evaluatorEvents final) :
    Run (parties.mapResults garbler evaluator) (network.mapResults garbler evaluator)
      garblerEvents evaluatorEvents (final.mapResults garbler evaluator) := by
  induction run with
  | refl => exact .refl
  | garbler step acts admits rest inductionHypothesis =>
      have still := (step_garbler_iff.mp step).2
      exact .of_acts_garbler inductionHypothesis (acts.mapResult garbler) admits
        (congrArg (Activity.mapResult evaluator) still)
  | evaluator step acts admits rest inductionHypothesis =>
      have still := (step_evaluator_iff.mp step).2
      exact .of_acts_evaluator inductionHypothesis (acts.mapResult evaluator) admits
        (congrArg (Activity.mapResult garbler) still)

/-- Every run of parties that change their results comes from a run of parties that do not. -/
theorem Run.of_mapResults {changed : Network σ γ τ δ}
    (run : Run (parties.mapResults garbler evaluator) (network.mapResults garbler evaluator)
      garblerEvents evaluatorEvents changed) :
    ∃ final, Run parties network garblerEvents evaluatorEvents final ∧
      changed = final.mapResults garbler evaluator := by
  generalize start : network.mapResults garbler evaluator = before at run
  induction run generalizing network with
  | refl => exact ⟨network, .refl, start.symm⟩
  | @garbler before next changed event garblerEvents evaluatorEvents step acts admits rest
      inductionHypothesis =>
      subst start
      obtain ⟨connection, garblerNext, evaluatorNext⟩ := next
      obtain ⟨activity, actsToo, rfl⟩ := Activity.Acts.of_mapResult acts
      obtain rfl : evaluatorNext = _ := (step_garbler_iff.mp step).2
      let middle : Network σ α τ β := { network with connection, garbler := activity }
      obtain ⟨final, others, rfl⟩ := @inductionHypothesis middle rfl
      exact ⟨final, others.of_acts_garbler actsToo admits rfl, rfl⟩
  | @evaluator before next changed event garblerEvents evaluatorEvents step acts admits rest
      inductionHypothesis =>
      subst start
      obtain ⟨connection, garblerNext, evaluatorNext⟩ := next
      obtain ⟨activity, actsToo, rfl⟩ := Activity.Acts.of_mapResult acts
      obtain rfl : garblerNext = _ := (step_evaluator_iff.mp step).2
      let middle : Network σ α τ β := { network with connection, evaluator := activity }
      obtain ⟨final, others, rfl⟩ := @inductionHypothesis middle rfl
      exact ⟨final, others.of_acts_evaluator actsToo admits rfl, rfl⟩

end Network

/-- Two parties that carry out a process each and then change their results. -/
theorem Parties.once_map (garblerChange : α → γ) (evaluatorChange : β → δ) (garbler : Process α)
    (evaluator : Process β) :
    once (garblerChange <$> garbler) (evaluatorChange <$> evaluator) =
      (once garbler evaluator).mapResults garblerChange evaluatorChange := by
  have finish {ε ζ : Type} (change : ε → ζ) (process : Process ε) :
      (Next.finish <$> change <$> process : Process (Next Unit ζ)) =
        Next.mapResult change <$> Next.finish <$> process := by
    rw [Functor.map_map, Functor.map_map]
    rfl
  simp only [once, mapResults, finish]
  rfl

/-- The runs of two parties that change their results are those of two parties that do not. -/
theorem Parties.run_once_map_iff (garblerChange : α → γ) (evaluatorChange : β → δ)
    (garbler : Process α) (evaluator : Process β) (connection : Connection)
    (garblerEvents evaluatorEvents : List (Event Unit)) (changed : Network Unit γ Unit δ) :
    let parties := once (garblerChange <$> garbler) (evaluatorChange <$> evaluator)
    let plain := once garbler evaluator
    Network.Run parties (Network.start parties () () connection) garblerEvents evaluatorEvents
        changed ↔
      ∃ final, Network.Run plain (Network.start plain () () connection) garblerEvents
          evaluatorEvents final ∧ changed = final.mapResults garblerChange evaluatorChange := by
  intro parties plain
  have same : parties = plain.mapResults garblerChange evaluatorChange := once_map _ _ _ _
  have start : Network.start parties () () connection =
      (Network.start plain () () connection).mapResults garblerChange evaluatorChange := by
    rw [same]
    rfl
  rw [start, same]
  constructor
  · exact Network.Run.of_mapResults
  · rintro ⟨final, run, rfl⟩
    exact run.mapResults

end Garbling
