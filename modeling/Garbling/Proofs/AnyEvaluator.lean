import Mathlib
import Garbling.Proofs.Failures
import Garbling.Proofs.ModesAgree
import Garbling.Proofs.Presenting

/-!
# The garbler against any evaluator

Whatever messages come from the other party: if the garbler comes to its outputs in continuous
mode, then these are the values that it was told in openings, one for each instruction that has
revealed a value, and the program went as it goes with these values from the start. An instruction
that depends on a value waits until it is open, so no value is used before it is told, or in
another one's place.
-/

namespace Garbling

open Session

variable {suite : Suite}

namespace RevealLog

variable {log after : RevealLog} {known values : List UInt64}

/-- The open values of the log are the given ones. -/
structure Knows (log : RevealLog) (known : List UInt64) : Prop where
  bounded : log.opened ≤ log.values.size
  opened : log.values.toList.take log.opened = known.map some

namespace Knows

theorem length_eq (knows : log.Knows known) : log.opened = known.length := by
  have lengths := congrArg List.length knows.opened
  have bounded := knows.bounded
  rw [List.length_take, Array.length_toList, List.length_map] at lengths
  omega

theorem revealed (knows : log.Knows known) : log.revealed = known := by
  rw [RevealLog.revealed, knows.opened, List.filterMap_map]
  exact List.filterMap_some

theorem awaiting (knows : log.Knows known) (count : Nat) : (log.awaiting count).Knows known where
  bounded := by
    rw [size_awaiting]
    exact knows.bounded.trans (Nat.le_add_right _ _)
  opened := by
    simp only [RevealLog.awaiting, Array.toList_append]
    rw [List.take_append_of_le_length knows.bounded, knows.opened]

/-- Openings, if there is one for each value that is not open, make the log know these values
as well, and leave none that is not open. -/
theorem applyOpenings (knows : log.Knows known) (applied : log.applyOpenings values = .ok after) :
    after.Knows (known ++ values) ∧ after.opened = after.values.size ∧
      after.values.size = log.values.size := by
  unfold RevealLog.applyOpenings at applied
  split at applied
  · next count =>
      cases applied
      have opened : (log.values.take log.opened).toList = known.map some := by
        simp [← knows.opened]
      have size : (log.values.take log.opened ++ (values.map some).toArray).size =
          log.values.size := by
        have length := congrArg List.length opened
        rw [Array.length_toList, List.length_map] at length
        have bounded := knows.bounded
        have known := knows.length_eq
        rw [Array.size_append, length, List.size_toArray, List.length_map, count, pending]
        omega
      refine ⟨⟨size.ge, ?_⟩, size.symm, size⟩
      have whole : (log.values.take log.opened ++ (values.map some).toArray).toList.length ≤
          log.values.size := by
        rw [Array.length_toList, size]
      rw [List.take_of_length_le whole, Array.toList_append, opened, List.map_append]
  · cases applied

end Knows

/-- What openings make of the log after a slice: nothing, if time was up. -/
def Filled (log : RevealLog) (ending : Break) (values : List UInt64) (after : RevealLog) : Prop :=
  match ending with
  | .time => values = [] ∧ after = log
  | .restart | .done => log.applyOpenings values = .ok after

theorem Knows.filled {ending : Break} (knows : log.Knows known)
    (filled : log.Filled ending values after) :
    after.Knows (known ++ values) ∧ after.values.size = log.values.size ∧
      (ending ≠ .time → after.opened = after.values.size) := by
  cases ending with
  | time =>
      obtain ⟨rfl, rfl⟩ := filled
      rw [List.append_nil]
      exact ⟨knows, rfl, fun other => absurd rfl other⟩
  | restart | done =>
      obtain ⟨knowsAfter, opened, size⟩ := knows.applyOpenings filled
      exact ⟨knowsAfter, size, fun _ => opened⟩

end RevealLog

namespace Machine.Scripted

/-- The interpreter stays where the machine is when values of the script are opened. -/
theorem opening {script known : List UInt64} {machine : Machine Label (GarblingState suite)}
    {reference : Reference} {log : RevealLog} (scripted : Scripted script machine reference)
    (knows : log.Knows known) (size : log.values.size = machine.processor.log.values.size)
    (told : known <+: script) :
    Scripted script { machine with processor := { machine.processor with log } } reference where
  counter := scripted.counter
  secrets := scripted.secrets
  clears := scripted.clears
  memory := scripted.memory
  inputs := scripted.inputs
  revealed := by
    rw [scripted.revealed]
    exact congrArg (script.take ·) size.symm
  opened index below := by
    have open_ : log.values.toList[index]? = (known.map some)[index]? := by
      rw [← knows.opened, List.getElem?_take_of_lt below]
    have inside : index < known.length := knows.length_eq ▸ below
    rw [Array.getElem?_toList, List.getElem?_map, List.getElem?_eq_getElem inside] at open_
    change log.values[index]?.join = script[index]?
    rw [open_, List.prefix_iff_getElem?.mp told index inside]
    rfl
  bounded := knows.bounded
  short := size.trans_le scripted.short

/-- Taking the batch out of the draft does not matter to the interpreter. -/
theorem emptied {script : List UInt64} {machine : Machine Label (GarblingState suite)}
    {reference : Reference} (scripted : Scripted script machine reference) :
    Scripted script machine.emptied reference :=
  { scripted with }

end Machine.Scripted

namespace Garbler

variable {task : Task} {garbler final : Garbler suite} {exchanges : List Exchange}

/-- The values that the garbler is told in the openings of a round, which it waits for unless
time was up. -/
inductive Opens (task : Task) : Phase suite × List Exchange → List UInt64 → Prop
  | entering {generator : suite.Generator} {exchanges : List Exchange} :
      Opens task (.entering generator, exchanges) []
  | time {garbler waiting : Garbler suite} {exchanges : List Exchange}
      (presents : (present task).Succeeds garbler exchanges .time waiting) :
      Opens task (.slicing garbler, exchanges) []
  | openings {garbler waiting : Garbler suite} {exchanges : List Exchange} {ending : Break}
      {message rest : Bytes} {values : List UInt64}
      (presents : (present task).Succeeds garbler exchanges ending waiting)
      (waits : ending ≠ .time)
      (decoded : Layout.fixed.openings.decode message = .ok (values, rest)) :
      Opens task (.slicing garbler, exchanges ++ [.into message]) values

/-- The footprints of the instructions that are executed in a round. -/
def footprints (task : Task) : Phase suite → List Footprint
  | .entering _ => []
  | .slicing garbler =>
      Machine.footprints (GarblingState.backend suite garbler.offset) task.program
        task.settings.timeSlice.toNat garbler.machine

/-- What a slice comes to. -/
theorem of_sliceContinuous {next : Next Unit Outputs}
    (succeeds : (sliceContinuous task).Succeeds garbler exchanges next final) :
    ∃ ending machine transfer values log,
      Machine.execute (GarblingState.backend suite garbler.offset) task.program
        task.settings.timeSlice.toNat garbler.machine = (.ok ending, machine) ∧
      Opens task (.slicing garbler, exchanges) values ∧
      machine.processor.log.Filled ending values log ∧
      final = (garbler.presented transfer machine ending).opened log ∧
      next = if ending = .done then .finish { revealed := log.revealed } else .again () := by
  rw [sliceContinuous_eq_present] at succeeds
  obtain ⟨_, _, ending, waiting, rfl, presents, waits⟩ := bind_succeeds.mp succeeds
  obtain ⟨machine, transfer, executes, rfl⟩ := of_present presents
  cases ending with
  | time =>
      obtain ⟨rfl, rfl, rfl⟩ := pure_succeeds.mp waits
      rw [List.append_nil]
      exact ⟨.time, machine, transfer, [], _, executes, .time presents, ⟨rfl, rfl⟩, rfl, rfl⟩
  | restart =>
      obtain ⟨_, _, _, _, rfl, received, last⟩ := bind_succeeds.mp waits
      obtain ⟨rfl, rfl, rfl⟩ := pure_succeeds.mp last
      obtain ⟨message, values, rest, log, rfl, decoded, applied, rfl⟩ :=
        of_receiveOpenings received
      rw [List.append_nil]
      exact ⟨.restart, machine, transfer, values, log, executes,
        .openings presents Break.noConfusion decoded, applied, rfl, rfl⟩
  | done =>
      obtain ⟨_, _, _, _, rfl, received, last⟩ := bind_succeeds.mp waits
      obtain ⟨message, values, rest, log, rfl, decoded, applied, rfl⟩ :=
        of_receiveOpenings received
      obtain ⟨_, _, _, _, rfl, got, told⟩ := bind_succeeds.mp last
      obtain ⟨rfl, rfl, rfl⟩ := get_succeeds.mp got
      obtain ⟨rfl, rfl, rfl⟩ := pure_succeeds.mp told
      exact ⟨.done, machine, transfer, values, log, executes,
        .openings presents Break.noConfusion decoded, applied, rfl, rfl⟩

/-- The footprints of the instructions that are executed in some rounds. -/
def path (task : Task) (visited : List (Phase suite × List Exchange)) : List Footprint :=
  visited.flatMap fun visit => footprints task visit.1

theorem path_cons (task : Task) (phase : Phase suite) (exchanges : List Exchange)
    (visited : List (Phase suite × List Exchange)) :
    path task ((phase, exchanges) :: visited) = footprints task phase ++ path task visited :=
  List.flatMap_cons

/-- Between two rounds the open values are the given ones, and no attempt is going on. -/
structure Ready (known : List UInt64) (garbler : Garbler suite) : Prop where
  lowered : garbler.machine.processor.taint = {}
  knows : garbler.machine.processor.log.Knows known

section

variable {known values : List UInt64} {ending : Break} {log : RevealLog}
  {machine : Machine Label (GarblingState suite)}

/-- After a round the garbler also knows what it was told, and its log has a place for each
instruction that has revealed a value. -/
theorem Ready.next (ready : Ready known garbler)
    (executes : Machine.execute (GarblingState.backend suite garbler.offset) task.program
      task.settings.timeSlice.toNat garbler.machine = (.ok ending, machine))
    (filled : machine.processor.log.Filled ending values log) (transfer : LabelTransfer suite) :
    Ready (known ++ values) ((garbler.presented transfer machine ending).opened log) ∧
      log.values.size = garbler.machine.processor.log.values.size +
        (footprints task (.slicing garbler)).countP (·.instruction.reveals) ∧
      (ending ≠ .time → log.opened = log.values.size) := by
  obtain ⟨executed, slice⟩ := Machine.execute_eq_ok_iff.mp executes
  have logged := slice.log_eq ready.lowered
  have knows : machine.processor.log.Knows known := logged ▸ ready.knows.awaiting _
  obtain ⟨knowsAfter, size, opened⟩ := knows.filled filled
  refine ⟨⟨?_, knowsAfter⟩, ?_, opened⟩
  · have lowered := slice.taint ready.lowered
    cases ending <;> exact lowered
  · rw [size, logged, RevealLog.size_awaiting, ← slice.map_footprints, List.countP_map]
    rfl

/-- In a round the interpreter leaves the footprints of the garbler, if the script goes on as the
garbler was told. -/
theorem Ready.leaves {script : List UInt64} {reference : Reference} (ready : Ready known garbler)
    (executes : Machine.execute (GarblingState.backend suite garbler.offset) task.program
      task.settings.timeSlice.toNat garbler.machine = (.ok ending, machine))
    (filled : machine.processor.log.Filled ending values log) (transfer : LabelTransfer suite)
    (scripted : Machine.Scripted script garbler.machine reference)
    (told : known ++ values <+: script) (short : log.values.size ≤ script.length)
    (enough : Instruction.allNeed ((footprints task (.slicing garbler)).map (·.instruction))
      .evaluatorInput ≤ reference.evaluatorInputs.length) :
    ∃ next, Reference.Leaves task.program script reference (footprints task (.slicing garbler))
        next ∧
      Machine.Scripted script ((garbler.presented transfer machine ending).opened log).machine
        next ∧
      next.evaluatorInputs = reference.evaluatorInputs.drop (Instruction.allNeed
        ((footprints task (.slicing garbler)).map (·.instruction)) .evaluatorInput) ∧
      (ending = .done → task.program.instructions[next.counter]? = none) := by
  obtain ⟨executed, slice⟩ := Machine.execute_eq_ok_iff.mp executes
  have knows : machine.processor.log.Knows known :=
    slice.log_eq ready.lowered ▸ ready.knows.awaiting _
  obtain ⟨knowsAfter, size, _⟩ := knows.filled filled
  have whole : (footprints task (.slicing garbler)).map (·.instruction) = executed :=
    slice.map_footprints
  rw [whole] at enough ⊢
  obtain ⟨next, leaves, settled, left⟩ :=
    scripted.slice slice ready.lowered (size ▸ short) enough
  have unchanged : (machine.settled ending).processor.log = machine.processor.log := by
    cases ending <;> rfl
  refine ⟨next, leaves, settled.emptied.opening knowsAfter (size.trans ?_) told, left, ?_⟩
  · exact congrArg (·.values.size) unchanged.symm
  · rintro rfl
    rw [settled.counter]
    exact slice.finished rfl

/-- A garbler that comes to its outputs has been told a value for each instruction that reveals
one, and it has followed the interpreter that has these values as its script. -/
theorem Ready.visits {visited : List (Phase suite × List Exchange)} {outputs : Outputs}
    (continuous : task.typed = .continuous) (ready : Ready known garbler)
    (visits : (rounds task).Visits (.slicing garbler) visited (.ok outputs)) :
    ∃ openings, List.Forall₂ (Opens task) visited openings ∧
      outputs = { revealed := known ++ openings.flatten } ∧
      (known ++ openings.flatten).length = garbler.machine.processor.log.values.size +
        (path task visited).countP (·.instruction.reveals) ∧
      ∀ {reference : Reference},
        Machine.Scripted (known ++ openings.flatten) garbler.machine reference →
        Instruction.allNeed ((path task visited).map (·.instruction)) .evaluatorInput ≤
          reference.evaluatorInputs.length →
        ∃ after, Reference.Leaves task.program (known ++ openings.flatten) reference
            (path task visited) after ∧
          task.program.instructions[after.counter]? = none ∧
          after.revealed = known ++ openings.flatten := by
  have sliced (garbler : Garbler suite) : rounds task (.slicing garbler) =
      (sliceContinuous task).toRound garbler fun garbler _ => .slicing garbler := by
    rw [rounds, slice, continuous]
  generalize start : Phase.slicing garbler = phase at visits
  generalize finish : Except.ok outputs = result at visits
  induction visits generalizing garbler known with
  | @finish phase exchanges result follows =>
      subst start finish
      rw [sliced] at follows
      obtain ⟨final, succeeds⟩ := toRound_follows_finish.mp follows
      obtain ⟨ending, machine, transfer, values, log, executes, opens, filled, rfl, next⟩ :=
        of_sliceContinuous succeeds
      obtain ⟨readyNext, size, opened⟩ := ready.next executes filled transfer
      by_cases done : ending = .done
      · rw [if_pos done] at next
        cases next
        subst done
        have knowsAfter : log.Knows (known ++ values) := readyNext.knows
        have length : (known ++ values).length = log.values.size :=
          knowsAfter.length_eq.symm.trans (opened Break.noConfusion)
        rw [path_cons, path, List.flatMap_nil, List.append_nil]
        refine ⟨[values], .cons opens .nil, ?_, ?_, ?_⟩
        · rw [knowsAfter.revealed, List.flatten_singleton]
        · rw [List.flatten_singleton, length, size]
        · intro reference scripted enough
          rw [List.flatten_singleton] at scripted ⊢
          obtain ⟨after, leaves, settled, _, ends⟩ :=
            ready.leaves executes filled transfer scripted List.prefix_rfl length.ge enough
          refine ⟨after, leaves, ends rfl, settled.revealed.trans ?_⟩
          exact List.take_of_length_le length.le
      · rw [if_neg done] at next
        cases next
  | @again phase following exchanges visited result follows others inductionHypothesis =>
      subst start
      rw [sliced] at follows
      obtain ⟨_, final, succeeds, rfl⟩ := toRound_follows_again.mp follows
      obtain ⟨ending, machine, transfer, values, log, executes, opens, filled, rfl, next⟩ :=
        of_sliceContinuous succeeds
      obtain ⟨readyNext, size, _⟩ := ready.next executes filled transfer
      obtain ⟨openings, all, told, length, continued⟩ := inductionHypothesis readyNext rfl finish
      rw [List.append_assoc] at told length continued
      refine ⟨values :: openings, .cons opens all, told, ?_, ?_⟩
      · rw [List.flatten_cons, length, path_cons, List.countP_append, ← Nat.add_assoc]
        exact congrArg (· + _) size
      · intro reference scripted enough
        rw [List.flatten_cons] at scripted ⊢
        rw [path_cons, List.map_append, Instruction.allNeed_append] at enough
        have short : log.values.size ≤ (known ++ (values ++ openings.flatten)).length := by
          rw [length]
          exact Nat.le_add_right _ _
        have prefix_ : known ++ values <+: known ++ (values ++ openings.flatten) := by
          rw [← List.append_assoc]
          exact List.prefix_append _ _
        obtain ⟨middle, leaves, settled, left, _⟩ := ready.leaves executes filled transfer scripted
          prefix_ short ((Nat.le_add_right _ _).trans enough)
        have remaining : Instruction.allNeed ((path task visited).map (·.instruction))
            .evaluatorInput ≤ middle.evaluatorInputs.length := by
          rw [left, List.length_drop]
          omega
        obtain ⟨after, others, ends, revealed⟩ := continued settled remaining
        rw [path_cons]
        exact ⟨after, leaves.trans others, ends, revealed⟩

end

/-- Openings of which there are not as many as there are values that are not open make the garbler
fail at once. -/
theorem fails_of_mismatch {waiting : Garbler suite} {ending : Break} {message rest : Bytes}
    {values : List UInt64} (continuous : task.typed = .continuous)
    (presents : (present task).Succeeds garbler exchanges ending waiting)
    (waits : ending ≠ .time)
    (decoded : Layout.fixed.openings.decode message = .ok (values, rest))
    (count : values.length ≠ waiting.machine.processor.log.pending) :
    (rounds task (.slicing garbler)).Follows (exchanges ++ [.into message])
      (.finish (.error (.violation (.openingCountMismatch
        waiting.machine.processor.log.pending values.length)))) := by
  have fails := receiveOpenings_fails decoded count
  have concludes : (concludeSlice ending).Fails waiting [.into message]
      (.violation (.openingCountMismatch waiting.machine.processor.log.pending values.length))
      waiting := by
    cases ending with
    | time => exact absurd rfl waits
    | restart | done => exact fails.bind
  have whole : (slice task).Fails garbler (exchanges ++ [.into message])
      (.violation (.openingCountMismatch waiting.machine.processor.log.pending values.length))
      waiting := by
    rw [slice, continuous]
    change (sliceContinuous task).Fails _ _ _ _
    rw [sliceContinuous_eq_present]
    exact presents.fails concludes
  rw [rounds, toRound_eq_bind, Process.bind_follows]
  exact ⟨_, [], _, (List.append_nil _).symm, whole, .refl⟩

/-- The garbler is ready when it has been set up. -/
theorem ready_entered (task : Task) (offset : Offset) (transfer : LabelTransfer suite)
    (generator : suite.Generator) : Ready [] (entered task offset transfer generator) where
  lowered := rfl
  knows := ⟨Nat.zero_le _, rfl⟩

/-- The garbler was told the values, and with them from the start, the program goes as the garbler
went, whatever the inputs of the evaluator are if there are enough of them. -/
structure Told (task : Task) (visited : List (Phase suite × List Exchange))
    (values : List UInt64) : Prop where
  opened : ∃ openings, List.Forall₂ (Opens task) visited openings ∧ openings.flatten = values
  one_each : values.length = (path task visited).countP (·.instruction.reveals)
  leaves : ∀ evaluatorInputs,
    Instruction.allNeed ((path task visited).map (·.instruction)) .evaluatorInput ≤
      evaluatorInputs.length →
    ∃ after, Reference.Leaves task.program values
        (.start task.program task.inputs evaluatorInputs) (path task visited) after ∧
      task.program.instructions[after.counter]? = none ∧ after.revealed = values

/-- Against any evaluator: if the garbler comes to its outputs in continuous mode, then these are
the values that it was told, one for each instruction that reveals a value, and the program has gone
as it goes with these values from the start. Openings that are too many or too few make the garbler
fail at once, whatever has happened before. -/
theorem runs_on_openings (continuous : task.typed = .continuous) (generator : suite.Generator) :
    (∀ events outputs,
      (Activity.running (rounds task (.entering generator))).Follows (rounds task) events
        (.ended (.ok outputs)) →
      ∃ visited values,
        (rounds task).Visits (.entering generator) visited (.ok outputs) ∧
        events = Event.ofVisited visited ∧ Told task visited values ∧
        outputs.revealed = values ∧ outputs.evaluatorOnly = []) ∧
    ∀ before (garbler waiting : Garbler suite) exchanges ending message rest values activity,
      (Activity.running (rounds task (.entering generator))).Follows (rounds task) before
        (.running (rounds task (.slicing garbler))) →
      (present task).Succeeds garbler exchanges ending waiting → ending ≠ .time →
      Layout.fixed.openings.decode message = .ok (values, rest) →
      values.length ≠ waiting.machine.processor.log.pending →
      ((Activity.running (rounds task (.entering generator))).Follows (rounds task)
          (before ++ (exchanges ++ [Exchange.into message]).map .exchanged) activity ↔
        activity = .running (.done (.finish (.error (.violation (.openingCountMismatch
          waiting.machine.processor.log.pending values.length)))))) := by
  constructor
  · intro events outputs follows
    obtain ⟨visited, visits, rfl⟩ := follows.visits
    obtain ⟨setup, offset, transfer, rest, others, rfl, _, slices⟩ := of_visits_entering visits
    obtain ⟨openings, opens, rfl, length, leaves⟩ :=
      (ready_entered task offset transfer rest).visits continuous slices
    rw [List.nil_append] at length leaves
    refine ⟨_, openings.flatten, visits, rfl, ?_, rfl, rfl⟩
    exact {
      opened := ⟨[] :: openings, .cons .entering opens, rfl⟩
      one_each := length.trans (Nat.zero_add _)
      leaves := fun evaluatorInputs =>
        leaves (Machine.Scripted.start task.program _ rest task.inputs evaluatorInputs) }
  · intro before garbler waiting exchanges ending message rest values activity comes presents waits
      decoded count
    have fails := comes.trans
      (.of_reaches (fails_of_mismatch continuous presents waits decoded count))
    constructor
    · intro follows
      exact follows.unique fails
    · rintro rfl
      exact fails

/-- The garbler of the conjunction is told one value, and it fails if the openings after its first
slice are empty. -/
theorem conjunction_runs_on_openings :
    let task := Task.ofConjunction
    let generator : Suite.exponents.Generator := .ofSeed []
    let begin_ : Activity (Phase Suite.exponents) (Except Error Outputs) :=
      .running (rounds task (.entering generator))
    task.typed = .continuous ∧
    (∃ events visited,
      begin_.Follows (rounds task) events (.ended (.ok { revealed := [1] })) ∧
      (rounds task).Visits (.entering generator) visited (.ok { revealed := [1] }) ∧
      events = Event.ofVisited visited ∧ Told task visited [1]) ∧
    ∃ before garbler waiting exchanges message rest,
      begin_.Follows (rounds task) before (.running (rounds task (.slicing garbler))) ∧
      (present task).Succeeds garbler exchanges .restart waiting ∧
      Layout.fixed.openings.decode message = .ok ([], rest) ∧
      waiting.machine.processor.log.pending = 1 ∧
      begin_.Follows (rounds task) (before ++ (exchanges ++ [Exchange.into message]).map .exchanged)
        (.running (.done (.finish (.error (.violation (.openingCountMismatch 1 0)))))) := by
  intro task generator begin_
  have continuous : task.typed = .continuous := rfl
  obtain ⟨told, refuses⟩ := runs_on_openings continuous generator
  obtain ⟨events, _, network, run, ends, _⟩ := @Run.exists_run Suite.exponents (fun _ => true)
    Suite.exponents_lawful _ _ .ofConjunction generator generator _ _
    Reference.finishes_conjunction (by decide) (by decide)
  have follows : begin_.Follows (rounds task) events (.ended (.ok { revealed := [1] })) :=
    ends ▸ run.follows.1
  obtain ⟨visited, values, visits, rfl, known, rfl, _⟩ := told events _ follows
  refine ⟨continuous, ⟨_, visited, follows, visits, rfl, known⟩, ?_⟩
  -- the first slice asks for a restart
  obtain ⟨setup, offset, transfer, rest, others, rfl, _, slices⟩ := of_visits_entering visits
  have restarts : (Machine.execute (GarblingState.backend Suite.exponents offset) task.program
      task.settings.timeSlice.toNat (entered task offset transfer rest).machine).1 =
        .ok .restart := rfl
  obtain ⟨openings, opens, _⟩ := (ready_entered task offset transfer rest).visits continuous slices
  have first : ∃ exchanges waiting between more, (present task).Succeeds
      (entered task offset transfer rest) exchanges .restart waiting ∧
      others = (.slicing (entered task offset transfer rest), between) :: more := by
    cases slices <;> cases opens with
    | cons opens _ =>
        cases opens with
        | time presents =>
            obtain ⟨_, _, executes, _⟩ := of_present presents
            cases restarts.symm.trans (congrArg Prod.fst executes)
        | openings presents =>
            obtain ⟨_, _, executes, _⟩ := of_present presents
            cases restarts.symm.trans (congrArg Prod.fst executes)
            exact ⟨_, _, _, _, presents, rfl⟩
  obtain ⟨exchanges, waiting, between, more, presents, rfl⟩ := first
  obtain ⟨before, comes⟩ : ∃ before, begin_.Follows (rounds task) before
      (.running (rounds task (.slicing (entered task offset transfer rest)))) := by
    rw [← List.singleton_append] at visits
    exact visits.comes_to
  obtain ⟨machine, after, executes, rfl⟩ := of_present presents
  have pending : ((entered task offset transfer rest).presented after machine
      .restart).machine.processor.log.pending = 1 := by
    obtain rfl : _ = machine := congrArg Prod.snd executes
    rfl
  obtain ⟨message, decoded⟩ : ∃ message, Layout.fixed.openings.decode message = .ok ([], []) :=
    ⟨_, (Layout.sound_fixed.openings (by decide)).decode⟩
  refine ⟨before, _, _, exchanges, message, [], comes, presents, decoded, pending, ?_⟩
  have refused activity := refuses before _ _ exchanges .restart message [] [] activity comes
    presents Break.noConfusion decoded (by rw [pending]; decide)
  rw [pending] at refused
  exact (refused _).mpr rfl

end Garbler

end Garbling
