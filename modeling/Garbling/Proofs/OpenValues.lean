import Mathlib
import Garbling.Proofs.Atomicity
import Garbling.Proofs.Footprints
import Garbling.Proofs.Openings

/-!
# Open values stay

The log of revealed values only grows. Executing instructions adds values at its end, which are not
open, and opening values moves the watermark to its end. No call touches what is below the
watermark, so the revealed values of a machine are always the beginning of those that it has later.
A party that fills in what the other one opens comes to the same revealed values.
-/

namespace Garbling

variable {wire state : Type}

namespace RevealLog

/-- The log with the given values in the place of those that were not open. -/
def filled (log : RevealLog) (openings : List UInt64) : RevealLog :=
  ⟨log.values.take log.opened ++ (openings.map some).toArray, log.values.size⟩

theorem applyOpenings_of_count (log : RevealLog) {openings : List UInt64}
    (count : openings.length = log.pending) :
    log.applyOpenings openings = .ok (log.filled openings) :=
  if_pos count

theorem filled_toList (log : RevealLog) (openings : List UInt64) :
    (log.filled openings).values.toList =
      log.values.toList.take log.opened ++ openings.map some := by
  simp [filled]

theorem filled_size (log : RevealLog) (bounded : log.opened ≤ log.values.size)
    {openings : List UInt64} (count : openings.length = log.pending) :
    (log.filled openings).values.size = log.values.size := by
  rw [pending] at count
  simp [filled, bounded, count]

variable {before middle after log first second : RevealLog}

/-- The second log is no shorter than the first one and open at least as far, and what is open in
the first one is the same in the second one. -/
structure Continues (before after : RevealLog) : Prop where
  size : before.values.size ≤ after.values.size
  opened : before.opened ≤ after.opened
  kept : after.values.toList.take before.opened = before.values.toList.take before.opened

namespace Continues

theorem refl (log : RevealLog) : Continues log log := ⟨Nat.le_refl _, Nat.le_refl _, rfl⟩

theorem trans (one : Continues before middle) (two : Continues middle after) :
    Continues before after where
  size := one.size.trans two.size
  opened := one.opened.trans two.opened
  kept := by
    have shorter := congrArg (List.take before.opened) two.kept
    rw [List.take_take, List.take_take, Nat.min_eq_left one.opened] at shorter
    exact shorter.trans one.kept

/-- An open value is the same later. -/
theorem getElem?_eq (continues : Continues before after) {index : Nat}
    (below : index < before.opened) : after.values[index]? = before.values[index]? := by
  have same := congrArg (·[index]?) continues.kept
  simpa only [List.getElem?_take_of_lt below, Array.getElem?_toList] using same

/-- What has been revealed is the beginning of what is revealed later. -/
theorem revealed_prefix (continues : Continues before after) :
    before.revealed <+: after.revealed := by
  rw [revealed, revealed, ← continues.kept]
  exact (List.take_prefix_take_left continues.opened).filterMap id

/-- More values are logged. -/
theorem append (bounded : log.opened ≤ log.values.size) (added : List (Option UInt64)) :
    Continues log { log with values := log.values ++ added.toArray } where
  size := by simp
  opened := Nat.le_refl _
  kept := by
    rw [Array.toList_append, List.take_append_of_le_length (by simpa using bounded)]

/-- All values are opened. -/
theorem opening (bounded : log.opened ≤ log.values.size) : Continues log log.opening :=
  ⟨Nat.le_refl _, bounded, rfl⟩

/-- The values that were not open are filled in. -/
theorem filled (bounded : log.opened ≤ log.values.size) {openings : List UInt64}
    (count : openings.length = log.pending) : Continues log (log.filled openings) where
  size := (log.filled_size bounded count).ge
  opened := bounded
  kept := by
    rw [log.filled_toList, List.take_append_of_le_length (by simpa using bounded), List.take_take,
      Nat.min_self]

end Continues

/-- A log into which the values are filled that another log opens becomes that log, if the two agree
on what is open already. -/
theorem applyOpenings_takeOpenings (known : first.Known)
    (size : first.values.size = second.values.size) (opened : first.opened = second.opened)
    (agree : ∀ index : Nat, index < first.opened → first.values[index]? = second.values[index]?) :
    second.applyOpenings first.takeOpenings.1 = .ok first.opening := by
  rcases Nat.le_total first.opened first.values.size with bounded | beyond
  · have related : Related (fun _ _ => True) first second :=
      ⟨size, opened, bounded, agree, fun _ _ _ _ _ _ => trivial⟩
    exact related.applyOpenings known
  · -- There is nothing to fill in, and the logs agree on everything.
    have same : second.values = first.values := by
      apply Array.ext_getElem?
      intro index
      by_cases below : index < first.opened
      · exact (agree index below).symm
      · rw [Array.getElem?_eq_none (by omega), Array.getElem?_eq_none (by omega)]
    have none : first.takeOpenings.1 = [] := by
      rw [takeOpenings, List.drop_eq_nil_of_le (by simpa using beyond)]
      rfl
    have count : ([] : List UInt64).length = second.pending := by
      rw [List.length_nil, pending, ← size, ← opened, Nat.sub_eq_zero_of_le beyond]
    rw [none, RevealLog.applyOpenings, if_pos count, same, opening]
    simp [← opened, beyond]

end RevealLog

/-- The backend knows every value that it reveals. -/
def Backend.Knows (backend : Backend wire state) : Prop :=
  ∀ wires before value after, (backend.reveal wires).runFrom before = (.ok value, after) →
    value.isSome

/-- The plain treatment of the gates knows the values if it is told them at once. -/
theorem Plain.backend_knows : (Plain.backend true).Knows := by
  intro wires before value after revealed
  rw [Plain.runFrom_reveal] at revealed
  cases revealed
  rfl

namespace Machine

variable {backend : Backend wire state} {program : Program} {instruction : Instruction}
  {before after machine : Machine wire state} {executed : List Instruction} {left : Nat}
  {result : Except Error Break × Machine wire state}

/-- Completed instructions log the values that they reveal, and do nothing else to the log. -/
theorem Advances.logs (advances : Advances backend program before executed after) :
    ∃ added : List (Option UInt64),
      after.processor.log =
        { before.processor.log with values := before.processor.log.values ++ added.toArray } ∧
      added.length = executed.countP Instruction.reveals ∧
      (backend.Knows → ∀ value ∈ added, value.isSome) := by
  induction advances with
  | refl => exact ⟨[], by simp, rfl, by simp⟩
  | @step before middle after instruction rest next attempted others inductionHypothesis =>
      obtain ⟨added, logged, count, known⟩ := inductionHypothesis
      obtain ⟨_, completes, _, rfl⟩ := attempt_eq_ok_iff.mp attempted
      have logs := completes.logs
      by_cases reveals : instruction.reveals = true
      · rw [if_pos reveals] at logs
        obtain ⟨wires, value, _, performed, pushed⟩ := logs
        refine ⟨value :: added, ?_, ?_, fun knows => ?_⟩
        · rw [logged, pushed]
          simp [RevealLog.push, Processor.advance]
        · rw [List.length_cons, count, List.countP_cons_of_pos reveals]
        · exact List.forall_mem_cons.mpr ⟨knows _ _ _ _ performed, known knows⟩
      · rw [if_neg reveals] at logs
        refine ⟨added, ?_, ?_, known⟩
        · rw [logged, logs]
          rfl
        · rw [count, List.countP_cons_of_neg reveals]

/-- When a machine stops its log stays as it was. -/
theorem Stops.log_eq (stops : Stops backend program machine left result)
    (lowered : machine.processor.taint = {}) : result.2.processor.log = machine.processor.log := by
  cases stops with
  | done | time => rfl
  | restart next attempted =>
      obtain ⟨rfl, _⟩ := restart_of_attempt lowered attempted
      rfl
  | failed next attempted =>
      rw [(interrupted_of_attempt attempted).kept]
      rfl

/-- The right number of values is filled in. -/
theorem applyOpenings_of_count (machine : Machine wire state) {openings : List UInt64}
    (count : openings.length = machine.processor.log.pending) :
    machine.applyOpenings openings =
      (.applied (.ok ()), machine.withProcessor
        { machine.processor with log := machine.processor.log.filled openings }) := by
  rw [Machine.applyOpenings, Processor.applyOpenings,
    machine.processor.log.applyOpenings_of_count count]
  rfl

/-- No call touches what is open. -/
theorem WellFormed.continues (wellFormed : machine.WellFormed program)
    (backend : Backend wire state) (call : Call) :
    machine.processor.log.Continues (machine.call backend program call).2.processor.log := by
  cases call with
  | execute budget =>
      obtain ⟨executed, last, left, _, advances, stops⟩ :=
        execute_eq_iff.mp (rfl : Machine.execute backend program budget machine = _)
      obtain ⟨added, logged, _⟩ := advances.logs
      have stopped := stops.log_eq (advances.lowered wellFormed.lowered)
      change machine.processor.log.Continues
        (Machine.execute backend program budget machine).2.processor.log
      rw [stopped, logged]
      exact .append wellFormed.opened added
  | rewind => exact .refl _
  | takeOpenings => exact .opening wellFormed.opened
  | applyOpenings openings =>
      change machine.processor.log.Continues (machine.applyOpenings openings).2.processor.log
      by_cases count : openings.length = machine.processor.log.pending
      · rw [machine.applyOpenings_of_count count]
        exact .filled wellFormed.opened count
      · rw [machine.applyOpenings_refused count]
        exact .refl _

theorem Leads.continues (leads : Leads program machine after)
    (wellFormed : machine.WellFormed program) :
    machine.processor.log.Continues after.processor.log := by
  induction leads with
  | refl => exact .refl _
  | call leads backend call inductionHypothesis =>
      exact inductionHypothesis.trans ((leads.wellFormed wellFormed).continues backend call)
  | handed _ given inductionHypothesis => exact inductionHypothesis

/-- Whatever is called in whatever order, whether the calls fail or not, the log gets no shorter,
the watermark does not go back, and the values below it stay as they are, so that the revealed
values are the beginning of those that there are later. If a processor that knows the values that
are not open has as long a log as another one, with the same watermark and the same open values,
then what it opens can be filled into the other log. Then both logs have no value left that is not
open, and the same revealed values. A list of another length is refused. -/
theorem open_values_stay {program : Program} {machine after : Machine wire state}
    (reachable : Reachable program machine) (leads : Leads program machine after) :
    machine.processor.log.values.size ≤ after.processor.log.values.size ∧
      machine.processor.log.opened ≤ after.processor.log.opened ∧
      (∀ index : Nat, index < machine.processor.log.opened →
        after.processor.log.values[index]? = machine.processor.log.values[index]?) ∧
      machine.processor.log.revealed <+: after.processor.log.revealed ∧
      ∀ (α β : Type) (evaluator : Processor α) (garbler : Processor β), evaluator.log.Known →
        evaluator.log.values.size = garbler.log.values.size →
        evaluator.log.opened = garbler.log.opened →
        (∀ index : Nat, index < evaluator.log.opened →
          evaluator.log.values[index]? = garbler.log.values[index]?) →
        (∃ filled, garbler.applyOpenings evaluator.takeOpenings.1 = .ok filled ∧
          filled.log.pending = 0 ∧ evaluator.takeOpenings.2.log.pending = 0 ∧
          filled.log.revealed = evaluator.takeOpenings.2.log.revealed) ∧
        ∀ openings, openings.length ≠ evaluator.takeOpenings.1.length →
          garbler.applyOpenings openings =
            .error (.openingCountMismatch garbler.log.pending openings.length) := by
  have continues := leads.continues reachable.wellFormed
  refine ⟨continues.size, continues.opened, fun index => continues.getElem?_eq,
    continues.revealed_prefix, fun α β evaluator garbler known size opened agree => ?_⟩
  have applied := RevealLog.applyOpenings_takeOpenings known size opened agree
  have none : evaluator.log.opening.pending = 0 := Nat.sub_self _
  refine ⟨⟨{ garbler with log := evaluator.log.opening }, ?_, none, none, rfl⟩,
    fun openings other => garbler.applyOpenings_refused fun count => other ?_⟩
  · rw [Processor.applyOpenings, Processor.takeOpenings, applied]
    rfl
  · rw [RevealLog.applyOpenings] at applied
    split at applied
    · next same => exact count.trans same.symm
    · cases applied

end Machine

/-- A bit of the garbler is revealed, and then its negation. -/
def Program.disclosure : Program where
  instructions := #[.garblerInput 0, .reveal 0 [0], .not 1 0, .reveal 1 [1]]
  memorySize := 0
  faultless := by decide

/-- The disclosure of a set bit, by a party that knows the values or does not, when the bit has been
opened by a call. -/
def Machine.ofDisclosure (known : Bool) (opening : Call) : Machine Bool Plain :=
  ((Machine.start Program.disclosure { garblerInputs := [true], evaluatorInputs := [] }).callAll
    (Plain.backend known) .disclosure [.execute 2, opening]).2

/-- The disclosure when the negation has been revealed, too. -/
def Machine.disclosed (known : Bool) (opening : Call) : Machine Bool Plain :=
  ((ofDisclosure known opening).call (Plain.backend known) .disclosure (.execute 9)).2

/-- The bit stays open when its negation is revealed, and the other party is told the negation. -/
theorem Machine.disclosed_values_stay :
    Reachable .disclosure (ofDisclosure true .takeOpenings) ∧
      Leads .disclosure (ofDisclosure true .takeOpenings) (disclosed true .takeOpenings) ∧
      (ofDisclosure true .takeOpenings).processor.log.revealed <+:
        (disclosed true .takeOpenings).processor.log.revealed ∧
      (disclosed true .takeOpenings).processor.log.Known ∧
      (disclosed true .takeOpenings).processor.takeOpenings.1 = [0] ∧
      (∃ filled, (disclosed false (.applyOpenings [1])).processor.applyOpenings [0] = .ok filled ∧
        filled.log.pending = 0 ∧ filled.log.revealed = [1, 0]) ∧
      (disclosed false (.applyOpenings [1])).processor.applyOpenings [0, 0] =
        .error (.openingCountMismatch 1 2) := by
  have reachable : Reachable .disclosure (ofDisclosure true .takeOpenings) :=
    ⟨_, Leads.refl.callAll _ _⟩
  have leads : Leads .disclosure (ofDisclosure true .takeOpenings)
      (disclosed true .takeOpenings) :=
    Leads.refl.call (Plain.backend true) (.execute 9)
  have values : (disclosed true .takeOpenings).processor.log.values = #[some 1, some 0] := rfl
  have known : (disclosed true .takeOpenings).processor.log.Known := by
    intro index value beyond held
    rw [values] at held
    have member := Array.mem_of_getElem? held
    simp only [List.mem_toArray, List.mem_cons, List.not_mem_nil, or_false] at member
    rcases member with rfl | rfl <;> rfl
  have agree : ∀ index : Nat, index < (disclosed true .takeOpenings).processor.log.opened →
      (disclosed true .takeOpenings).processor.log.values[index]? =
        (disclosed false (.applyOpenings [1])).processor.log.values[index]? := by
    intro index below
    have first : index = 0 := Nat.lt_one_iff.mp below
    rw [first]
    rfl
  obtain ⟨_, _, _, begins, fills⟩ := open_values_stay reachable leads
  obtain ⟨⟨filled, applied, none, _, same⟩, refused⟩ :=
    fills _ _ _ (disclosed false (.applyOpenings [1])).processor known rfl rfl agree
  exact ⟨reachable, leads, begins, known, rfl, ⟨filled, applied, none, same⟩,
    refused [0, 0] (by decide)⟩

end Garbling
