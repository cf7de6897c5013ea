import Mathlib
import Garbling.Proofs.Course
import Garbling.Role.Run

/-!
# Carrying out a run

The fixed order of steps in which a run is carried out is one of the orders in which it can go on.
If every order leads to a goal, then carrying out the run gets there, given enough steps, without
anybody having to give up.
-/

namespace Garbling

namespace Network

variable {σ α τ β : Type} {parties : Parties σ α τ β} {ongoing goal : Network σ α τ β → Prop}
  {stop : Network σ α τ β → Bool} {network : Network σ α τ β}

/-- Nobody goes on from here. -/
def Halts (parties : Parties σ α τ β) (stop : Network σ α τ β → Bool) (network : Network σ α τ β) :
    Prop :=
  stop network = true ∨ (∀ role, network.step parties role = none) ∧ network.someoneWaits = false

/-- A run that has halted is carried out no further. -/
theorem Halts.carryOut (halts : network.Halts parties stop) (limit : Nat) (role : Role)
    (idle : Bool) : carryOut parties stop limit role idle [] network = network := by
  induction limit generalizing role idle with
  | zero => rfl
  | succ limit inductionHypothesis =>
      rcases halts with stopped | ⟨stuck, none⟩
      · rw [Network.carryOut, if_pos stopped]
      · rw [Network.carryOut]
        simp only [stuck, none, List.contains_nil, Bool.false_eq_true, if_false, ite_self,
          inductionHypothesis]

/-- One step of a run that is carried out. -/
theorem carryOut_of_step {role : Role} {next : Network σ α τ β} (goes : stop network = false)
    (stepped : network.step parties role = some next) (limit : Nat) (idle : Bool) :
    carryOut parties stop (limit + 1) role idle [] network =
      carryOut parties stop limit role false [] next := by
  rw [carryOut]
  simp only [goes, stepped, Bool.false_eq_true, if_false, List.erase_nil]

/-- The other party's turn comes when a party has to wait. -/
theorem carryOut_of_stuck {role : Role} (goes : stop network = false)
    (stuck : network.step parties role = none) (limit : Nat) :
    carryOut parties stop (limit + 1) role false [] network =
      carryOut parties stop limit role.peer true [] network := by
  rw [carryOut]
  simp only [goes, stuck, Bool.false_eq_true, if_false, List.contains_nil, Bool.not_false, if_true]

/-- If every order of steps leads to a goal, then a run that is carried out gets there. -/
theorem Leads.carryOut (leads : Leads parties ongoing goal network)
    (goes : ∀ network, ongoing network → stop network = false)
    (halts : ∀ network, goal network → network.Halts parties stop) :
    ∃ enough, ∀ limit, enough ≤ limit → ∀ role idle,
      (idle = true → network.step parties role.peer = none) →
        goal (Network.carryOut parties stop limit role idle [] network) := by
  induction leads with
  | @now network reached =>
      refine ⟨0, fun limit _ role idle _ => ?_⟩
      rw [(halts network reached).carryOut]
      exact reached
  | @later network holds progress steps inductionHypothesis =>
      have going := goes network holds
      have after (role : Role) : ∃ enough, ∀ limit, enough ≤ limit → ∀ next idle,
          network.step parties role = some next →
            goal (Network.carryOut parties stop (limit + 1) role idle [] network) := by
        cases stepped : network.step parties role with
        | none => exact ⟨0, fun _ _ _ _ impossible => nomatch impossible⟩
        | some next =>
            obtain ⟨enough, reaches⟩ := inductionHypothesis role next stepped
            refine ⟨enough, fun limit long _ idle _ => ?_⟩
            rw [carryOut_of_step going stepped]
            exact reaches limit long role false nofun
      obtain ⟨one, first⟩ := after .garbler
      obtain ⟨two, second⟩ := after .evaluator
      have either (limit : Nat) (long : one + two ≤ limit) (role : Role) (idle : Bool)
          (next : Network σ α τ β) (stepped : network.step parties role = some next) :
          goal (Network.carryOut parties stop (limit + 1) role idle [] network) := by
        cases role with
        | garbler => exact first limit (by omega) next idle stepped
        | evaluator => exact second limit (by omega) next idle stepped
      refine ⟨one + two + 2, fun limit long role idle waits => ?_⟩
      obtain ⟨limit, rfl⟩ := Nat.exists_eq_add_of_le' long
      cases stepped : network.step parties role with
      | some next => exact either (limit + (one + two) + 1) (by omega) role idle next stepped
      | none =>
          -- It is the other party that can take a step, so it has not been found waiting.
          obtain ⟨able, next, moves⟩ := progress
          have peer : able = role.peer := by
            cases able <;> cases role <;> first | rfl | cases stepped.symm.trans moves
          rw [peer] at moves
          cases idle with
          | true => cases (waits rfl).symm.trans moves
          | false =>
              rw [show limit + (one + two + 2) = limit + (one + two) + 1 + 1 from rfl,
                carryOut_of_stuck going stepped]
              exact either (limit + (one + two)) (by omega) role.peer true next moves

end Network

namespace Run

variable {suite : Suite} {usable : String → Bool}

/-- A party has failed. -/
def failed {σ τ : Type} (network : Network σ Outcome τ Outcome) : Bool :=
  hasFailed network.garbler || hasFailed network.evaluator

/-- What a run reports: the outputs of both parties, or the failure of one of them. -/
def report {σ τ : Type} (network : Network σ Outcome τ Outcome) :
    Option (Except Error (Outputs × Outputs)) :=
  match network.garbler.result?, network.evaluator.result? with
  | some (.error error), _ => some (.error error)
  | _, some (.error error) => some (.error error)
  | some (.ok garbler), some (.ok evaluator) => some (.ok (garbler, evaluator))
  | _, _ => none

/-- What a run of the given tasks reports when it is carried out in at most the given number of
steps. -/
def carriedOut (suite : Suite) (usable : String → Bool) (garbler evaluator : Task) (limit : Nat)
    (garblerGenerator evaluatorGenerator : suite.Generator) :
    Option (Except Error (Outputs × Outputs)) :=
  report (Network.carryOut (parties suite usable garbler evaluator) failed limit .garbler false []
    (start suite usable garbler evaluator garblerGenerator evaluatorGenerator))

theorem simulate_eq (settings : Settings) (program : Program)
    (garblerInputs evaluatorInputs : List Bool)
    (garblerGenerator evaluatorGenerator : suite.Generator) :
    simulate suite usable settings program garblerInputs evaluatorInputs garblerGenerator
        evaluatorGenerator =
      carriedOut suite usable (.ofSettings settings program garblerInputs)
        (.ofSettings settings program evaluatorInputs) Network.stepLimit garblerGenerator
        evaluatorGenerator := rfl

section

variable {σ τ : Type} {parties : Parties σ Outcome τ Outcome} {network : Network σ Outcome τ Outcome}
  {garblerAhead : List (Event σ)} {evaluatorAhead : List (Event τ)}

/-- A party that is to end well has not failed. -/
theorem hasFailed_of_follows {rounds : Rounds σ Outcome} {activity : Activity σ Outcome}
    {events : List (Event σ)} {outputs : Outputs}
    (follows : activity.Follows rounds events (.ended (.ok outputs))) :
    hasFailed activity = false := by
  cases activity with
  | running process => rfl
  | ended value =>
      cases value with
      | ok found => rfl
      | error error => cases follows.of_ended.2

/-- A party that has no result has not failed. -/
theorem hasFailed_of_running {activity : Activity σ Outcome} (running : activity.result? = none) :
    hasFailed activity = false := by
  cases activity with
  | running process => rfl
  | ended value => cases running

theorem not_failed_of_course {first second : Outputs}
    (course : network.OnCourse parties garblerAhead evaluatorAhead (.ended (.ok first))
      (.ended (.ok second))) : failed network = false := by
  rw [failed, hasFailed_of_follows course.garbler, hasFailed_of_follows course.evaluator]
  rfl

theorem not_failed_of_running (garbler : network.garbler.result? = none)
    (evaluator : network.evaluator.result? = none) : failed network = false := by
  rw [failed, hasFailed_of_running garbler, hasFailed_of_running evaluator]
  rfl

/-- Nobody goes on once both parties have ended. -/
theorem halts_of_ended {first second : Outcome} (garbler : network.garbler = .ended first)
    (evaluator : network.evaluator = .ended second) : network.Halts parties failed := by
  refine .inr ⟨fun role => ?_, ?_⟩
  · cases role with
    | garbler => exact Network.step_garbler_of_ended garbler
    | evaluator => exact Network.step_evaluator_of_ended evaluator
  · rw [Network.someoneWaits, Network.giveUp, Network.giveUp, garbler, evaluator]
    rfl

/-- Nobody goes on once the garbler has failed. -/
theorem halts_of_failed {error : Error} (garbler : network.garbler = .ended (.error error)) :
    network.Halts parties failed := by
  refine .inl ?_
  rw [failed, garbler]
  rfl

/-- Nobody goes on once the evaluator has failed. -/
theorem halts_of_evaluator_failed {error : Error}
    (evaluator : network.evaluator = .ended (.error error)) : network.Halts parties failed := by
  refine .inl ?_
  rw [failed, evaluator]
  exact Bool.or_true _

/-- The failure of the evaluator is reported if the garbler has no result yet. -/
theorem report_of_evaluator_failed {error : Error} (garbler : network.garbler.result? = none)
    (evaluator : network.evaluator = .ended (.error error)) :
    report network = some (.error error) := by
  rw [report, garbler, evaluator]
  rfl

end

section

variable {garblerTask evaluatorTask : Task} {garblerGenerator evaluatorGenerator : suite.Generator}
  {garblerAhead : List (Event (Garbler.Phase suite))}
  {evaluatorAhead : List (Event (Evaluator.Phase suite))}

/-- A run on course to the end of both parties reports their outputs. -/
theorem carriedOut_of_course {first second : Outputs}
    (course : Network.OnCourse (parties suite usable garblerTask evaluatorTask)
      (start suite usable garblerTask evaluatorTask garblerGenerator evaluatorGenerator)
      garblerAhead evaluatorAhead (.ended (.ok first)) (.ended (.ok second))) :
    ∃ enough, ∀ limit, enough ≤ limit →
      carriedOut suite usable garblerTask evaluatorTask limit garblerGenerator
        evaluatorGenerator = some (.ok (first, second)) := by
  obtain ⟨enough, reaches⟩ := course.leads_on_course.carryOut
    (fun network ⟨_, _, onCourse⟩ => not_failed_of_course onCourse)
    (fun network ⟨garblerEnds, evaluatorEnds⟩ => halts_of_ended garblerEnds evaluatorEnds)
  refine ⟨enough, fun limit long => ?_⟩
  obtain ⟨garblerEnds, evaluatorEnds⟩ := reaches limit long .garbler false nofun
  rw [carriedOut, report, garblerEnds, evaluatorEnds]
  rfl

/-- A run on course to a failure of the garbler while the evaluator waits reports this failure. -/
theorem carriedOut_of_failure {error : Error}
    {waiting : Except ReceiveFailure Bytes → Process (Next (Evaluator.Phase suite) Outcome)}
    (course : Network.OnCourse (parties suite usable garblerTask evaluatorTask)
      (start suite usable garblerTask evaluatorTask garblerGenerator evaluatorGenerator)
      garblerAhead evaluatorAhead (.ended (.error error)) (.running (.receive waiting))) :
    ∃ enough, ∀ limit, enough ≤ limit →
      carriedOut suite usable garblerTask evaluatorTask limit garblerGenerator
        evaluatorGenerator = some (.error error) := by
  obtain ⟨enough, reaches⟩ := course.leads_to_end_of_garbler.carryOut
    (fun network ⟨garblerRuns, evaluatorRuns⟩ => not_failed_of_running garblerRuns evaluatorRuns)
    (fun network ⟨garblerEnds, _⟩ => halts_of_failed garblerEnds)
  refine ⟨enough, fun limit long => ?_⟩
  obtain ⟨garblerEnds, _⟩ := reaches limit long .garbler false nofun
  rw [carriedOut, report, garblerEnds]
  rfl

/-- A run on course to a failure of the evaluator while the garbler waits reports this failure. -/
theorem carriedOut_of_evaluator_failure {error : Error}
    {waiting : Except ReceiveFailure Bytes → Process (Next (Garbler.Phase suite) Outcome)}
    (course : Network.OnCourse (parties suite usable garblerTask evaluatorTask)
      (start suite usable garblerTask evaluatorTask garblerGenerator evaluatorGenerator)
      garblerAhead evaluatorAhead (.running (.receive waiting)) (.ended (.error error))) :
    ∃ enough, ∀ limit, enough ≤ limit →
      carriedOut suite usable garblerTask evaluatorTask limit garblerGenerator
        evaluatorGenerator = some (.error error) := by
  obtain ⟨enough, reaches⟩ := course.leads_to_end_of_evaluator.carryOut
    (fun network ⟨garblerRuns, evaluatorRuns⟩ => not_failed_of_running garblerRuns evaluatorRuns)
    (fun network ⟨_, evaluatorEnds⟩ => halts_of_evaluator_failed evaluatorEnds)
  refine ⟨enough, fun limit long => ?_⟩
  obtain ⟨garblerRuns, evaluatorEnds⟩ := reaches limit long .garbler false nofun
  exact report_of_evaluator_failed garblerRuns evaluatorEnds

end

end Run

end Garbling
