import Mathlib
import Garbling.Proofs.OpenValues

/-!
# Restarts make progress

A role executes one slice after the other. When a slice asks for a restart, the role goes back one
instruction and all values are opened: a party that knows them opens them itself, and one that does
not is given one value for each. Something is always waiting to be opened then, and afterwards
nothing is left that the instruction could wait for. So each restart is paid for by a value that was
revealed before it and opened by it.
-/

namespace Garbling

namespace Machine

variable {wire state : Type}

/-- All values of the machine are opened. -/
inductive Opens (backend : Backend wire state) (machine : Machine wire state) :
    Machine wire state → Prop
  /-- A party that knows its values opens them. -/
  | taken (knows : backend.Knows) : Opens backend machine machine.takeOpenings.2
  /-- A party is given one value for each that is not open. -/
  | applied {openings : List UInt64} (count : openings.length = machine.processor.log.pending) :
      Opens backend machine (machine.applyOpenings openings).2

/-- What a role does with its machine after a slice that has ended for the given reason. -/
inductive Answers (backend : Backend wire state) :
    Break → Machine wire state → Machine wire state → Prop
  | time {machine : Machine wire state} : Answers backend .time machine machine
  | restart {machine opened : Machine wire state}
      (opens : Opens backend (machine.withProcessor machine.processor.rewind) opened) :
      Answers backend .restart machine opened
  | done {machine opened : Machine wire state} (opens : Opens backend machine opened) :
      Answers backend .done machine opened

/-- A role has driven its machine through some slices. The list tells of each slice which
instructions it has executed and why it has ended. Budgets are arbitrary, so that a run may be cut
between any two instructions, and before a slice the role may put the backend into any state. -/
inductive Driven (backend : Backend wire state) (program : Program) :
    List (List Instruction × Break) → Machine wire state → Prop
  | start (initial : state) : Driven backend program [] (.start program initial)
  | slice {slices : List (List Instruction × Break)} {machine after next : Machine wire state}
      {budget : Nat} {executed : List Instruction} {ending : Break}
      (driven : Driven backend program slices machine) (given : state)
      (slice : Slice backend program budget { machine with backend := given } executed ending after)
      (answers : Answers backend ending after next) :
      Driven backend program (slices ++ [(executed, ending)]) next

variable {backend : Backend wire state} {program : Program}
  {before machine after opened : Machine wire state} {budget : Nat} {executed : List Instruction}
  {ending : Break} {slices : List (List Instruction × Break)} {instruction : Instruction}

theorem Opens.leads (opens : Opens backend machine opened)
    (leads : Leads program before machine) : Leads program before opened := by
  cases opens with
  | taken => exact leads.call backend .takeOpenings
  | @applied openings => exact leads.call backend (.applyOpenings openings)

/-- Opening values does not move the program counter. -/
theorem Opens.counter (opens : Opens backend machine opened) :
    opened.processor.counter = machine.processor.counter := by
  cases opens with
  | taken => rfl
  | applied count =>
      rw [machine.applyOpenings_of_count count]
      rfl

/-- Opening values leaves none that is not open. -/
theorem Opens.pending (opens : Opens backend machine opened)
    (bounded : machine.processor.log.opened ≤ machine.processor.log.values.size) :
    opened.processor.log.pending = 0 := by
  cases opens with
  | taken => exact Nat.sub_self _
  | @applied openings count =>
      rw [machine.applyOpenings_of_count count]
      exact Nat.sub_eq_zero_of_le (machine.processor.log.filled_size bounded count).le

/-- After a restart the machine goes back, and its values are opened. -/
theorem Answers.opens (answers : Answers backend .restart machine opened) :
    Opens backend (machine.withProcessor machine.processor.rewind) opened := by
  cases answers with
  | restart opens => exact opens

theorem Answers.leads (answers : Answers backend ending machine after)
    (leads : Leads program before machine) : Leads program before after := by
  cases answers with
  | time => exact leads
  | restart opens => exact opens.leads (leads.call backend .rewind)
  | done opens => exact opens.leads leads

theorem Slice.leads (slice : Slice backend program budget machine executed ending after)
    (leads : Leads program before machine) : Leads program before after := by
  have called := leads.call backend (.execute budget)
  have success : execute backend program budget machine = (.ok ending, after) :=
    execute_eq_ok_iff.mpr ⟨executed, slice⟩
  rwa [call, success] at called

/-- A machine that is driven through slices is reachable. -/
theorem Driven.reachable (driven : Driven backend program slices machine) :
    Reachable program machine := by
  induction driven with
  | start initial => exact ⟨initial, .refl⟩
  | slice driven given slice answers inductionHypothesis =>
      obtain ⟨initial, leads⟩ := inductionHypothesis
      exact ⟨initial, answers.leads (slice.leads (leads.handed given))⟩

/-- What there is in a log after so many reveals and restarts. -/
structure Accounts (backend : Backend wire state) (reveals restarts : Nat) (log : RevealLog) :
    Prop where
  bounded : log.opened ≤ log.values.size
  revealed : log.values.size = reveals
  /-- Each restart has opened a value. -/
  restarted : restarts ≤ log.opened
  known : ∀ value ∈ log.values.toList.take log.opened, value.isSome
  knows : backend.Knows → ∀ value ∈ log.values.toList, value.isSome

namespace Accounts

variable {reveals restarts more : Nat} {log : RevealLog}

/-- The backend does not matter. -/
theorem handed (accounts : Accounts backend reveals restarts machine.processor.log)
    (given : state) :
    Accounts backend reveals restarts { machine with backend := given }.processor.log :=
  accounts

theorem empty (backend : Backend wire state) : Accounts backend 0 0 {} :=
  ⟨Nat.le_refl _, rfl, Nat.le_refl _, nofun, fun _ => nofun⟩

/-- Completed instructions add the values that they reveal. -/
theorem advances (accounts : Accounts backend reveals restarts before.processor.log)
    (advances : Advances backend program before executed after) :
    Accounts backend (reveals + executed.countP Instruction.reveals) restarts
      after.processor.log := by
  obtain ⟨added, logged, count, known⟩ := advances.logs
  have bounded := accounts.bounded
  have size : (before.processor.log.values ++ added.toArray).size =
      before.processor.log.values.size + added.length := by simp
  rw [logged]
  constructor
  · rw [size]
    exact bounded.trans (Nat.le_add_right _ _)
  · rw [size, count, accounts.revealed]
  · exact accounts.restarted
  · rw [Array.toList_append, List.take_append_of_le_length (by simpa using bounded)]
    exact accounts.known
  · intro knows value member
    rw [Array.toList_append, List.mem_append] at member
    rcases member with old | new
    · exact accounts.knows knows value old
    · exact known knows value new

/-- Nothing but completed instructions changes the log in a slice. -/
theorem slice (accounts : Accounts backend reveals restarts before.processor.log)
    (slice : Slice backend program budget before executed ending after)
    (lowered : before.processor.taint = {}) :
    Accounts backend (reveals + executed.countP Instruction.reveals) restarts
      after.processor.log := by
  obtain ⟨last, left, _, advances, stops⟩ := slice.stops
  have stopped := stops.log_eq (advances.lowered lowered)
  rw [stopped]
  exact accounts.advances advances

/-- Opening all values leaves a log of known values that are all open. -/
theorem opens (accounts : Accounts backend reveals restarts machine.processor.log)
    (opens : Opens backend machine opened) (paid : more ≤ machine.processor.log.values.size) :
    Accounts backend reveals more opened.processor.log := by
  have bounded := accounts.bounded
  cases opens with
  | taken knows =>
      have all := accounts.knows knows
      exact ⟨Nat.le_refl _, accounts.revealed, paid,
        fun value member => all value (List.mem_of_mem_take member), fun _ => all⟩
  | @applied openings count =>
      rw [machine.applyOpenings_of_count count]
      have size := machine.processor.log.filled_size bounded count
      have all : ∀ value ∈ (machine.processor.log.filled openings).values.toList, value.isSome := by
        intro value member
        rw [RevealLog.filled_toList, List.mem_append] at member
        rcases member with old | new
        · exact accounts.known value old
        · obtain ⟨word, _, rfl⟩ := List.mem_map.mp new
          rfl
      exact ⟨size.ge, size.trans accounts.revealed, paid,
        fun value member => all value (List.mem_of_mem_take member), fun _ => all⟩

/-- Every open value is known. -/
theorem getElem?_eq (accounts : Accounts backend reveals restarts log) {index : Nat}
    (below : index < log.opened) : ∃ value, log.values[index]? = some (some value) := by
  have inside := below.trans_le accounts.bounded
  have member : log.values[index] ∈ log.values.toList.take log.opened := by
    rw [List.mem_take_iff_getElem]
    exact ⟨index, by simp [below, inside], by simp⟩
  obtain ⟨value, held⟩ := Option.isSome_iff_exists.mp (accounts.known _ member)
  exact ⟨value, by rw [Array.getElem?_eq_getElem inside, held]⟩

/-- A clear register gives no value only if the processor is tainted. -/
theorem readClear_raised {processor tainted : Processor wire}
    (accounts : Accounts backend reveals restarts processor.log) {register : Register}
    (success : processor.readClear register = .ok (none, tainted)) :
    tainted.taint.raised = true := by
  rw [Processor.readClear] at success
  split at success
  · cases success
  · cases success
  · next index held =>
      split at success
      · next below =>
          obtain ⟨value, known⟩ := accounts.getElem?_eq below
          rw [known] at success
          cases success
      · cases success
        rfl

end Accounts

/-- Something is not open if a well-formed machine waits for a value. -/
theorem WellFormed.pending_pos (wellFormed : machine.WellFormed program)
    (waits : machine.Waits instruction) : 0 < machine.processor.log.pending := by
  obtain ⟨register, index, _, place, beyond⟩ := waits.refers
  exact Nat.sub_pos_of_lt (beyond.trans_lt (wellFormed.logged _ _ place))

/-- A slice that ends with a restart has come to an instruction that waits for a value. Only the
program counter is past it. -/
theorem Slice.waits (slice : Slice backend program budget before executed .restart after)
    (wellFormed : before.WellFormed program) :
    ∃ last instruction, Advances backend program before executed last ∧
      program.instructions[last.processor.counter]? = some instruction ∧
        attempt backend instruction last = (.ok .restartRequested, after) ∧
          after = { last with processor := last.processor.advance } ∧
            0 < last.processor.log.pending := by
  obtain ⟨last, left, _, advances, stops⟩ := slice.stops
  cases stops with
  | @restart left instruction after next attempted =>
      have reached := advances.wellFormed wellFormed
      obtain ⟨same, waits⟩ := restart_of_attempt reached.lowered attempted
      exact ⟨last, instruction, advances, next, attempted, same, reached.pending_pos waits⟩

/-- A machine all of whose values are open does not wait. -/
theorem WellFormed.not_restartRequested (wellFormed : machine.WellFormed program)
    (none : machine.processor.log.pending = 0) :
    Machine.attempt backend instruction machine ≠ (.ok .restartRequested, after) := by
  intro attempted
  obtain ⟨_, waits⟩ := restart_of_attempt wellFormed.lowered attempted
  exact absurd none (wellFormed.pending_pos waits).ne'

/-- What there is in the log of a machine that is driven through some slices. -/
theorem Driven.accounts (driven : Driven backend program slices machine) :
    Accounts backend ((slices.flatMap Prod.fst).countP Instruction.reveals)
      (slices.countP (·.2 = .restart)) machine.processor.log := by
  induction driven with
  | start initial => exact .empty backend
  | @slice slices machine after next budget executed ending driven given slice answers
      inductionHypothesis =>
      have wellFormed := driven.reachable.wellFormed.handed given
      have reached := (inductionHypothesis.handed given).slice slice wellFormed.lowered
      simp only [List.flatMap_append, List.flatMap_singleton, List.countP_append,
        List.countP_singleton]
      cases answers with
      | time => exact reached
      | done opens => exact reached.opens opens (reached.restarted.trans reached.bounded)
      | restart opens =>
          -- Something was not open, and pays for the restart.
          obtain ⟨last, instruction, _, _, _, same, pending⟩ := slice.waits wellFormed
          have paid : after.processor.log.opened < after.processor.log.values.size := by
            rw [same]
            exact Nat.lt_of_sub_pos pending
          have rewound : Accounts backend _ _
              (after.withProcessor after.processor.rewind).processor.log := reached
          exact rewound.opens opens (reached.restarted.trans_lt paid)

/-- A role that has driven its machine through some slices has driven it through any number of the
first ones. -/
theorem Driven.of_prefix {first : List (List Instruction × Break)}
    (driven : Driven backend program slices machine) (isPrefix : first <+: slices) :
    ∃ earlier, Driven backend program first earlier := by
  induction driven with
  | start initial =>
      rw [List.prefix_nil.mp isPrefix]
      exact ⟨_, .start initial⟩
  | slice driven given slice answers inductionHypothesis =>
      rcases List.prefix_concat_iff.mp isPrefix with all | shorter
      · rw [all]
        exact ⟨_, driven.slice given slice answers⟩
      · exact inductionHypothesis shorter

/-- A slice with a positive budget completes the instruction and goes on after it, or it fails
because the instruction fails. -/
def Resumes (backend : Backend wire state) (program : Program) (instruction : Instruction)
    (machine : Machine wire state) : Prop :=
  ∀ left,
    (∃ error failed, attempt backend instruction machine = (.error error, failed) ∧
      execute backend program (left + 1) machine = (.error error, failed)) ∨
    (∃ next, attempt backend instruction machine = (.ok .proceed, next) ∧
      execute backend program (left + 1) machine = execute backend program left next)

/-- A machine all of whose values are open resumes with its next instruction. -/
theorem WellFormed.resumes (wellFormed : machine.WellFormed program)
    (none : machine.processor.log.pending = 0)
    (next : program.instructions[machine.processor.counter]? = some instruction) :
    Resumes backend program instruction machine := by
  intro left
  rcases attempted : Machine.attempt backend instruction machine with ⟨error | checkpoint, after⟩
  · exact .inl ⟨error, after, rfl, execute_of_attempt_error next attempted left⟩
  · cases checkpoint with
    | restartRequested => exact absurd attempted (wellFormed.not_restartRequested none)
    | proceed =>
        have advances : Advances backend program machine [instruction] after :=
          .step next attempted .refl
        refine .inr ⟨after, rfl, ?_⟩
        rw [Nat.add_comm]
        exact advances.execute_add left

/-- However a role drives its machine through slices, no more of the slices up to any point have
ended with a restart than values were revealed. Whatever instructions are completed after that, all
open values are known, so that a clear register that gives no value taints the processor. If the
next slice ends with a restart then values are waiting to be opened, and once they are, the machine
is back at the instruction that has asked for the restart and resumes with it. -/
theorem restarts_make_progress {backend : Backend wire state} {program : Program}
    {slices : List (List Instruction × Break)} {machine : Machine wire state}
    (driven : Driven backend program slices machine) :
    (∀ first, first <+: slices →
      first.countP (·.2 = .restart) ≤ (first.flatMap Prod.fst).countP Instruction.reveals) ∧
    ∀ given,
      (∀ executed last, Advances backend program { machine with backend := given } executed last →
        (∀ index < last.processor.log.opened, ∃ value,
          last.processor.log.values[index]? = some (some value)) ∧
        ∀ register tainted, last.processor.readClear register = .ok (none, tainted) →
          tainted.taint.raised = true) ∧
      ∀ budget after opened,
        execute backend program budget { machine with backend := given } = (.ok .restart, after) →
        Answers backend .restart after opened →
        0 < after.processor.log.pending ∧ opened.processor.log.pending = 0 ∧
          ∃ executed last instruction,
            Advances backend program { machine with backend := given } executed last ∧
            attempt backend instruction last = (.ok .restartRequested, after) ∧
            opened.processor.counter = last.processor.counter ∧
            program.instructions[opened.processor.counter]? = some instruction ∧
            ∀ given, Resumes backend program instruction { opened with backend := given } := by
  have before := driven.reachable.wellFormed
  refine ⟨fun first isPrefix => ?_, fun given => ⟨fun executed last advances => ?_,
    fun budget after opened success answers => ?_⟩⟩
  · obtain ⟨earlier, drivenEarlier⟩ := driven.of_prefix isPrefix
    have accounts := drivenEarlier.accounts
    exact (accounts.restarted.trans accounts.bounded).trans_eq accounts.revealed
  · have accounts := (driven.accounts.handed given).advances advances
    exact ⟨fun index => accounts.getElem?_eq, fun register tainted => accounts.readClear_raised⟩
  · obtain ⟨executed, slice⟩ := execute_eq_ok_iff.mp success
    obtain ⟨last, instruction, advances, next, attempted, same, pending⟩ :=
      slice.waits (before.handed given)
    have stopped : after.WellFormed program := by
      have left := ((before.handed given).execute backend budget).2
      rwa [success] at left
    have opens := answers.opens
    have none : opened.processor.log.pending = 0 := opens.pending stopped.opened
    have counter : opened.processor.counter = last.processor.counter := by
      rw [opens.counter, same]
      rfl
    have resumed : program.instructions[opened.processor.counter]? = some instruction := by
      rw [counter, next]
    have reached := (driven.slice given slice answers).reachable.wellFormed
    refine ⟨?_, none, executed, last, instruction, advances, attempted, counter, resumed,
      fun given => (reached.handed given).resumes none resumed⟩
    rw [same]
    exact pending

end Machine

/-- Bits of the garbler are revealed until one is set. -/
def Program.persistence : Program where
  instructions := #[.garblerInput 0, .reveal 0 [0], .jumpIfZero 0 0]
  memorySize := 0
  faultless := by decide

/-- The inputs of a garbler whose second bit is set. -/
def Plain.ofPersistence : Plain := { garblerInputs := [false, true], evaluatorInputs := [] }

/-- A party that knows the values, or does not, when it asks for a restart. -/
def Machine.ofHesitation (known : Bool) : Machine Bool Plain :=
  (execute (Plain.backend known) .persistence 9 (.start .persistence .ofPersistence)).2

/-- The party when it is back at the jump. -/
def Machine.ofReturn (known : Bool) : Machine Bool Plain :=
  (ofHesitation known).withProcessor (ofHesitation known).processor.rewind

/-- The slice after which it asks for a restart. -/
def Machine.hesitation : List (List Instruction × Break) :=
  [([.garblerInput 0, .reveal 0 [0]], .restart)]

/-- The jump waits for the value of the first bit, and a party that does not know the value resumes
when it is told. A party that knows the value opens it. -/
theorem Machine.persistence_makes_progress :
    execute (Plain.backend false) .persistence 9 (.start .persistence .ofPersistence) =
        (.ok .restart, ofHesitation false) ∧
      Answers (Plain.backend false) .restart (ofHesitation false)
        ((ofReturn false).applyOpenings [0]).2 ∧
      0 < (ofHesitation false).processor.log.pending ∧
      Resumes (Plain.backend false) .persistence (.jumpIfZero 0 0)
        ((ofReturn false).applyOpenings [0]).2 ∧
      Driven (Plain.backend true) .persistence hesitation (ofReturn true).takeOpenings.2 ∧
      hesitation.countP (·.2 = .restart) ≤
        (hesitation.flatMap Prod.fst).countP Instruction.reveals := by
  have slice (known : Bool) : Slice (Plain.backend known) .persistence 9
      (.start .persistence .ofPersistence) [.garblerInput 0, .reveal 0 [0]] .restart
      (ofHesitation known) := by
    cases known <;> exact .step rfl rfl (.step rfl rfl (.restart rfl rfl))
  have success := execute_eq_ok_iff.mpr ⟨_, slice false⟩
  have answers : Answers (Plain.backend false) .restart (ofHesitation false)
      ((ofReturn false).applyOpenings [0]).2 := .restart (.applied rfl)
  have start (known : Bool) : Driven (Plain.backend known) .persistence []
      (.start .persistence .ofPersistence : Machine Bool Plain) := .start _
  have driven : Driven (Plain.backend true) .persistence hesitation
      (ofReturn true).takeOpenings.2 :=
    (start true).slice _ (slice true) (.restart (.taken Plain.backend_knows))
  obtain ⟨counts, _⟩ := restarts_make_progress driven
  obtain ⟨_, resumes⟩ := restarts_make_progress (start false)
  obtain ⟨pending, _, _, _, instruction, _, _, _, next, past⟩ :=
    (resumes .ofPersistence).2 9 _ _ success answers
  have same : some (.jumpIfZero 0 0) = some instruction := next
  cases same
  exact ⟨success, answers, pending, past _, driven, counts _ (List.prefix_refl _)⟩

end Garbling
