import Mathlib
import Garbling.Proofs.Action

/-!
# Instructions and slices

`Machine.Completes` says what completing an instruction amounts to. An instruction uses its
backend at most once, and an instruction that asks for a restart leaves everything as it was,
except for the program counter. A slice that ends without an error is a chain of completed
instructions, followed by the reason why it ends.
-/

namespace Garbling

variable {wire state : Type}

namespace Processor

/-- Keeps a revealed value in the log and its place in a clear register. -/
def reveal (processor : Processor wire) (register : Register) (value : Option UInt64) :
    Processor wire :=
  { processor.writeClear register (.revealed processor.log.values.size) with
    log := processor.log.push value }

theorem readAll_cons_ok {processor : Processor wire} {register : Register}
    {registers : List Register} {wires : List wire} :
    processor.readAll (register :: registers) = .ok wires ↔
      ∃ value values, processor.read register = .ok value ∧
        processor.readAll registers = .ok values ∧ wires = value :: values := by
  simp only [readAll, List.mapM_cons]
  cases processor.read register with
  | error error => simp [bind, Except.bind]
  | ok value =>
      cases registers.mapM processor.read with
      | error error => simp [bind, Except.bind]
      | ok values => simp [bind, Except.bind, pure, Except.pure, eq_comm]

theorem readAll_length {processor : Processor wire} {registers : List Register}
    {wires : List wire} (success : processor.readAll registers = .ok wires) :
    wires.length = registers.length := by
  induction registers generalizing wires with
  | nil =>
      cases success
      rfl
  | cons register rest inductionHypothesis =>
      obtain ⟨value, values, _, others, rfl⟩ := readAll_cons_ok.mp success
      simp [inductionHypothesis others]

/-- Reading a clear register changes nothing, or it raises the taint flag because the value
is not open, and then it gives no value. -/
theorem readClear_ok {processor after : Processor wire} {register : Register}
    {found : Option UInt64} (success : processor.readClear register = .ok (found, after)) :
    after = processor ∨
      found = none ∧ after = { processor with taint := ⟨true⟩ } ∧
        ∃ index, processor.clears.getD register.toNat .unset = .revealed index ∧
          processor.log.opened ≤ index := by
  unfold readClear at success
  split at success
  · cases success
  · cases success
    exact .inl rfl
  · next index held =>
      split at success
      · cases success
        exact .inl rfl
      · next pending =>
          cases success
          exact .inr ⟨rfl, rfl, index, held, by omega⟩

end Processor

/-- The clear register whose value an instruction needs, if it needs one. -/
def Instruction.reads? : Instruction → Option Register
  | .store _ _ offset | .load _ _ offset => some offset
  | .jumpIfZero condition _ => some condition
  | _ => none

/-- What an instruction does to the state of a backend: it uses one operation, if any. -/
def Backend.Effect (backend : Backend wire state) :
    Instruction → state → state → Prop
  | .garblerInput _, before, after => ∃ value,
      backend.garblerInput.runFrom before = (.ok value, after)
  | .evaluatorInput _, before, after => ∃ value,
      backend.evaluatorInput.runFrom before = (.ok value, after)
  | .and .., before, after => ∃ left right value,
      (backend.and left right).runFrom before = (.ok value, after)
  | .reveal _ src, before, after => ∃ wires value, wires.length = src.length ∧
      (backend.reveal wires).runFrom before = (.ok value, after)
  | .output src, before, after => ∃ wires value, wires.length = src.length ∧
      (backend.output wires).runFrom before = (.ok value, after)
  | _, before, after => after = before

namespace Machine

/-- The second machine is what the first one becomes when the instruction is completed. -/
def Completes (backend : Backend wire state) :
    Instruction → Machine wire state → Machine wire state → Prop
  | .garblerInput dst, before, after => ∃ value rest,
      backend.garblerInput.runFrom before.backend = (.ok value, rest) ∧
        after = ⟨before.processor.write dst value, before.memory, rest⟩
  | .evaluatorInput dst, before, after => ∃ value rest,
      backend.evaluatorInput.runFrom before.backend = (.ok value, rest) ∧
        after = ⟨before.processor.write dst value, before.memory, rest⟩
  | .xor dst lhs rhs, before, after => ∃ left right,
      before.processor.read lhs = .ok left ∧ before.processor.read rhs = .ok right ∧
        after = { before with processor := before.processor.write dst (backend.xor left right) }
  | .and dst lhs rhs, before, after => ∃ left right value rest,
      before.processor.read lhs = .ok left ∧ before.processor.read rhs = .ok right ∧
        (backend.and left right).runFrom before.backend = (.ok value, rest) ∧
          after = ⟨before.processor.write dst value, before.memory, rest⟩
  | .not dst src, before, after => ∃ value, before.processor.read src = .ok value ∧
      after = { before with processor := before.processor.write dst (backend.not value) }
  | .reveal dst src, before, after => ∃ wires value rest,
      before.processor.readAll src = .ok wires ∧
        (backend.reveal wires).runFrom before.backend = (.ok value, rest) ∧
          after = ⟨before.processor.reveal dst value, before.memory, rest⟩
  | .output src, before, after => ∃ wires rest, before.processor.readAll src = .ok wires ∧
      (backend.output wires).runFrom before.backend = (.ok (), rest) ∧
        after = { before with backend := rest }
  | .constant dst value, before, after =>
      after = { before with processor := before.processor.writeClear dst (.constant value) }
  | .store src base offset, before, after => ∃ value found processor,
      before.processor.read src = .ok value ∧
        before.processor.readClear offset = .ok (found, processor) ∧
          match found with
          | none => after = { before with processor }
          | some offset => ∃ memory, before.memory.store base offset value = .ok memory ∧
              after = { before with processor, memory }
  | .load dst base offset, before, after => ∃ found processor,
      before.processor.readClear offset = .ok (found, processor) ∧
        match found with
        | none => after = { before with processor }
        | some offset => ∃ value, before.memory.load base offset = .ok value ∧
            after = { before with processor := processor.write dst value }
  | .jumpIfZero condition target, before, after => ∃ found processor,
      before.processor.readClear condition = .ok (found, processor) ∧
        after = { before with
          processor := if found = some 0 then { processor with counter := target.toNat }
            else processor }
  | .jump target, before, after =>
      after = { before with processor := { before.processor with counter := target.toNat } }

theorem runFrom_store_eq_ok {before after : Machine wire state} {base offset : UInt64}
    {value : wire} :
    (do
      let memory ← checked ((← get).memory.store base offset value)
      modify fun machine => { machine with memory } : Action (Machine wire state) Unit).runFrom
        before = (.ok (), after) ↔
      ∃ memory, before.memory.store base offset value = .ok memory ∧
        after = { before with memory } := by
  simp only [Action.runFrom_get_bind, Action.runFrom_bind_eq_ok, runFrom_checked_eq_ok,
    Action.runFrom_modify_eq_ok]
  grind

/-- A step succeeds exactly if its instruction can be completed. -/
theorem step_eq_ok_iff {backend : Backend wire state} {instruction : Instruction}
    {before after : Machine wire state} :
    (step backend instruction).runFrom before = (.ok (), after) ↔
      Completes backend instruction before after := by
  cases instruction with
  | garblerInput dst =>
      simp only [step, Completes, Action.runFrom_bind_eq_ok, runFrom_perform_eq_ok,
        runFrom_write_eq_ok]
      grind
  | evaluatorInput dst =>
      simp only [step, Completes, Action.runFrom_bind_eq_ok, runFrom_perform_eq_ok,
        runFrom_write_eq_ok]
      grind
  | xor dst lhs rhs =>
      simp only [step, Completes, Action.runFrom_bind_eq_ok, runFrom_read_eq_ok,
        runFrom_write_eq_ok]
      grind
  | and dst lhs rhs =>
      simp only [step, Completes, Action.runFrom_bind_eq_ok, runFrom_read_eq_ok,
        runFrom_perform_eq_ok, runFrom_write_eq_ok]
      grind
  | not dst src =>
      simp only [step, Completes, Action.runFrom_bind_eq_ok, runFrom_read_eq_ok,
        runFrom_write_eq_ok]
      grind
  | reveal dst src =>
      simp only [step, Completes, Action.runFrom_bind_eq_ok, runFrom_readAll_eq_ok,
        runFrom_perform_eq_ok, Action.runFrom_get_bind, runFrom_writeClear_eq_ok,
        Action.runFrom_modify_eq_ok]
      grind [Processor.reveal, Processor.writeClear]
  | output src =>
      simp only [step, Completes, Action.runFrom_bind_eq_ok, runFrom_readAll_eq_ok,
        runFrom_perform_eq_ok]
      grind
  | constant dst value => simp only [step, Completes, runFrom_writeClear_eq_ok]
  | store src base offset =>
      refine Action.runFrom_bind_eq_ok.trans (exists_congr fun value => ?_)
      simp only [runFrom_read_eq_ok]
      constructor
      · rintro ⟨_, ⟨reading, rfl⟩, success⟩
        obtain ⟨found, processor, clear, success⟩ := runFrom_readClear_then_eq_ok.mp success
        refine ⟨found, processor, reading, clear, ?_⟩
        cases found with
        | none => exact success
        | some offset => exact runFrom_store_eq_ok.mp success
      · rintro ⟨found, processor, reading, clear, success⟩
        refine ⟨_, ⟨reading, rfl⟩, runFrom_readClear_then_eq_ok.mpr ⟨found, processor, clear, ?_⟩⟩
        cases found with
        | none => exact success
        | some offset => exact runFrom_store_eq_ok.mpr success
  | load dst base offset =>
      refine runFrom_readClear_then_eq_ok.trans
        (exists_congr fun found => exists_congr fun processor => and_congr_right fun _ => ?_)
      cases found with
      | none => exact Iff.rfl
      | some offset =>
          simp only [Action.runFrom_get_bind, Action.runFrom_bind_eq_ok, runFrom_checked_eq_ok,
            runFrom_write_eq_ok]
          grind
  | jumpIfZero condition target =>
      refine runFrom_readClear_then_eq_ok.trans
        (exists_congr fun found => exists_congr fun processor => and_congr_right fun _ => ?_)
      cases found with
      | none => exact Iff.rfl
      | some value =>
          by_cases zero : value = 0
          · simp only [zero, if_true, runFrom_jump_eq_ok]
          · simp [zero, eq_comm]
  | jump target => simp only [step, Completes, runFrom_jump_eq_ok]

/-- An attempt that does not fail completes the instruction and reads the taint flag. -/
theorem attempt_eq_ok_iff {backend : Backend wire state} {instruction : Instruction}
    {before after : Machine wire state} {checkpoint : Checkpoint} :
    attempt backend instruction before = (.ok checkpoint, after) ↔
      ∃ middle,
        Completes backend instruction { before with processor := before.processor.advance } middle ∧
          checkpoint = middle.processor.taint.checkpoint.1 ∧
            after = { middle with processor := { middle.processor with taint := {} } } := by
  have outcome : attempt backend instruction before =
      match (step backend instruction).runFrom
        { before with processor := before.processor.advance } with
      | (.error error, machine) => (.error error, machine)
      | (.ok (), machine) => (.ok machine.processor.taint.checkpoint.1,
          { machine with processor := { machine.processor with taint := {} } }) := rfl
  simp only [outcome, ← step_eq_ok_iff]
  split
  · next failed => simp [failed]
  · next machine completed =>
      simp only [completed, Prod.mk.injEq, Except.ok.injEq, true_and, exists_eq_left']
      exact and_congr eq_comm eq_comm

/-- What completing an instruction does to the state of the backend. -/
theorem Completes.effect {backend : Backend wire state} {instruction : Instruction}
    {before after : Machine wire state} (completes : Completes backend instruction before after) :
    backend.Effect instruction before.backend after.backend := by
  cases instruction with
  | garblerInput dst =>
      obtain ⟨value, rest, performed, rfl⟩ := completes
      exact ⟨value, performed⟩
  | evaluatorInput dst =>
      obtain ⟨value, rest, performed, rfl⟩ := completes
      exact ⟨value, performed⟩
  | and dst lhs rhs =>
      obtain ⟨left, right, value, rest, _, _, performed, rfl⟩ := completes
      exact ⟨left, right, value, performed⟩
  | reveal dst src =>
      obtain ⟨wires, value, rest, reading, performed, rfl⟩ := completes
      exact ⟨wires, value, Processor.readAll_length reading, performed⟩
  | output src =>
      obtain ⟨wires, rest, reading, performed, rfl⟩ := completes
      exact ⟨wires, (), Processor.readAll_length reading, performed⟩
  | store src base offset =>
      obtain ⟨value, found, processor, _, _, stored⟩ := completes
      cases found with
      | none =>
          subst stored
          rfl
      | some offset =>
          obtain ⟨memory, _, rfl⟩ := stored
          rfl
  | load dst base offset =>
      obtain ⟨found, processor, _, loaded⟩ := completes
      cases found with
      | none =>
          subst loaded
          rfl
      | some offset =>
          obtain ⟨value, _, rfl⟩ := loaded
          rfl
  | xor dst lhs rhs =>
      obtain ⟨left, right, _, _, rfl⟩ := completes
      rfl
  | not dst src =>
      obtain ⟨value, _, rfl⟩ := completes
      rfl
  | jumpIfZero condition target =>
      obtain ⟨found, processor, _, rfl⟩ := completes
      rfl
  | constant dst value =>
      subst completes
      rfl
  | jump target =>
      subst completes
      rfl

/-- The instruction needs the value of a clear register that holds a value which is not open. -/
def Waits (machine : Machine wire state) (instruction : Instruction) : Prop :=
  ∃ register, instruction.reads? = some register ∧ ∃ index,
    machine.processor.clears.getD register.toNat .unset = .revealed index ∧
      machine.processor.log.opened ≤ index

/-- The clear register exists, and refers to the log. -/
theorem Waits.refers {machine : Machine wire state} {instruction : Instruction}
    (waits : machine.Waits instruction) :
    ∃ register index, instruction.reads? = some register ∧
      machine.processor.clears[register.toNat]? = some (.revealed index) ∧
        machine.processor.log.opened ≤ index := by
  obtain ⟨register, reads, index, held, pending⟩ := waits
  refine ⟨register, index, reads, ?_, pending⟩
  rw [Array.getD_eq_getD_getElem?] at held
  cases found : machine.processor.clears[register.toNat]? with
  | none => simp [found] at held
  | some clear => simpa [found] using held

/-- An instruction that raises the taint flag does nothing else, and it waits for a value. -/
theorem Completes.tainted {backend : Backend wire state} {instruction : Instruction}
    {before after : Machine wire state} (completes : Completes backend instruction before after)
    (lowered : before.processor.taint = {})
    (raised : after.processor.taint.raised = true) :
    after = { before with processor := { before.processor with taint := ⟨true⟩ } } ∧
      before.Waits instruction := by
  have unread {register : Register} {found : Option UInt64} {processor : Processor wire}
      (success : before.processor.readClear register = .ok (found, processor))
      (flag : processor.taint.raised = true) :
      found = none ∧ processor = { before.processor with taint := ⟨true⟩ } ∧
        ∃ index, before.processor.clears.getD register.toNat .unset = .revealed index ∧
          before.processor.log.opened ≤ index := by
    rcases Processor.readClear_ok success with rfl | held
    · rw [lowered] at flag
      cases flag
    · exact held
  cases instruction with
  | store src base offset =>
      obtain ⟨value, found, processor, _, clear, stored⟩ := completes
      cases found with
      | none =>
          subst stored
          obtain ⟨_, rfl, held⟩ := unread clear raised
          exact ⟨rfl, offset, rfl, held⟩
      | some value =>
          obtain ⟨memory, _, rfl⟩ := stored
          cases (unread clear raised).1
  | load dst base offset =>
      obtain ⟨found, processor, clear, loaded⟩ := completes
      cases found with
      | none =>
          subst loaded
          obtain ⟨_, rfl, held⟩ := unread clear raised
          exact ⟨rfl, offset, rfl, held⟩
      | some value =>
          obtain ⟨value, _, rfl⟩ := loaded
          cases (unread clear raised).1
  | jumpIfZero condition target =>
      obtain ⟨found, processor, clear, rfl⟩ := completes
      by_cases zero : found = some 0
      · rw [if_pos zero] at raised
        rw [zero] at clear
        cases (unread clear raised).1
      · rw [if_neg zero] at raised ⊢
        obtain ⟨_, rfl, held⟩ := unread clear raised
        exact ⟨rfl, condition, rfl, held⟩
  | garblerInput dst =>
      obtain ⟨value, rest, _, rfl⟩ := completes
      exact absurd raised (by simp [Processor.write, lowered])
  | evaluatorInput dst =>
      obtain ⟨value, rest, _, rfl⟩ := completes
      exact absurd raised (by simp [Processor.write, lowered])
  | xor dst lhs rhs =>
      obtain ⟨left, right, _, _, rfl⟩ := completes
      exact absurd raised (by simp [Processor.write, lowered])
  | and dst lhs rhs =>
      obtain ⟨left, right, value, rest, _, _, _, rfl⟩ := completes
      exact absurd raised (by simp [Processor.write, lowered])
  | not dst src =>
      obtain ⟨value, _, rfl⟩ := completes
      exact absurd raised (by simp [Processor.write, lowered])
  | reveal dst src =>
      obtain ⟨wires, value, rest, _, _, rfl⟩ := completes
      exact absurd raised (by simp [Processor.reveal, Processor.writeClear, lowered])
  | output src =>
      obtain ⟨wires, rest, _, _, rfl⟩ := completes
      exact absurd raised (by simp [lowered])
  | constant dst value =>
      subst completes
      exact absurd raised (by simp [Processor.writeClear, lowered])
  | jump target =>
      subst completes
      exact absurd raised (by simp [lowered])

/-- An attempt leaves the taint flag lowered. -/
theorem taint_of_attempt {backend : Backend wire state} {instruction : Instruction}
    {before after : Machine wire state} {checkpoint : Checkpoint}
    (attempted : attempt backend instruction before = (.ok checkpoint, after)) :
    after.processor.taint = {} := by
  obtain ⟨middle, _, _, rfl⟩ := attempt_eq_ok_iff.mp attempted
  rfl

/-- An instruction that asks for a restart only moves the program counter, and it waits for
a value. -/
theorem restart_of_attempt {backend : Backend wire state} {instruction : Instruction}
    {before after : Machine wire state} (lowered : before.processor.taint = {})
    (attempted : attempt backend instruction before = (.ok .restartRequested, after)) :
    after = { before with processor := before.processor.advance } ∧ before.Waits instruction := by
  obtain ⟨middle, completed, checkpoint, rfl⟩ := attempt_eq_ok_iff.mp attempted
  have raised : middle.processor.taint.raised = true := by
    by_contra low
    simp [Taint.checkpoint, low] at checkpoint
  obtain ⟨rfl, waits⟩ := completed.tainted lowered raised
  refine ⟨?_, waits⟩
  simp only [Processor.advance, ← lowered]

/-- The machines at the start and at the end of a slice that executes the given instructions
and ends for the given reason. An instruction that asks for a restart is not executed. -/
inductive Slice (backend : Backend wire state) (program : Program) :
    (budget : Nat) → Machine wire state → List Instruction → Break → Machine wire state → Prop
  | done {budget : Nat} {machine : Machine wire state}
      (finished : program.instructions[machine.processor.counter]? = none) :
      Slice backend program budget machine [] .done machine
  | time {machine : Machine wire state} {instruction : Instruction}
      (next : program.instructions[machine.processor.counter]? = some instruction) :
      Slice backend program 0 machine [] .time machine
  | restart {budget : Nat} {machine after : Machine wire state} {instruction : Instruction}
      (next : program.instructions[machine.processor.counter]? = some instruction)
      (attempted : attempt backend instruction machine = (.ok .restartRequested, after)) :
      Slice backend program (budget + 1) machine [] .restart after
  | step {budget : Nat} {machine middle after : Machine wire state} {instruction : Instruction}
      {rest : List Instruction} {ending : Break}
      (next : program.instructions[machine.processor.counter]? = some instruction)
      (attempted : attempt backend instruction machine = (.ok .proceed, middle))
      (slice : Slice backend program budget middle rest ending after) :
      Slice backend program (budget + 1) machine (instruction :: rest) ending after

/-- Execution succeeds exactly if there is a slice. -/
theorem execute_eq_ok_iff {backend : Backend wire state} {program : Program} {budget : Nat}
    {before after : Machine wire state} {ending : Break} :
    execute backend program budget before = (.ok ending, after) ↔
      ∃ executed, Slice backend program budget before executed ending after := by
  constructor
  · intro success
    induction budget generalizing before with
    | zero =>
        unfold execute at success
        cases lookup : program.instructions[before.processor.counter]? with
        | none =>
            simp only [lookup] at success
            cases success
            exact ⟨[], .done lookup⟩
        | some instruction =>
            simp only [lookup] at success
            cases success
            exact ⟨[], .time lookup⟩
    | succ budget inductionHypothesis =>
        unfold execute at success
        cases lookup : program.instructions[before.processor.counter]? with
        | none =>
            simp only [lookup] at success
            cases success
            exact ⟨[], .done lookup⟩
        | some instruction =>
            simp only [lookup] at success
            split at success
            · cases success
            · next attempted =>
                cases success
                exact ⟨[], .restart lookup attempted⟩
            · next middle attempted =>
                obtain ⟨executed, slice⟩ := inductionHypothesis success
                exact ⟨instruction :: executed, .step lookup attempted slice⟩
  · rintro ⟨executed, slice⟩
    induction slice with
    | done finished =>
        unfold execute
        rw [finished]
    | time next =>
        unfold execute
        rw [next]
    | restart next attempted =>
        unfold execute
        simp only [next, attempted]
    | step next attempted slice inductionHypothesis =>
        unfold execute
        simp only [next, attempted]
        exact inductionHypothesis

/-- What is executed after a slice that runs out of time can be executed in the same slice. -/
theorem Slice.execute_add {backend : Backend wire state} {program : Program} {budget : Nat}
    {before after : Machine wire state} {executed : List Instruction}
    (slice : Slice backend program budget before executed .time after) (more : Nat) :
    execute backend program (budget + more) before = execute backend program more after := by
  generalize ends : Break.time = ending at slice
  induction slice with
  | done | restart => cases ends
  | time next => rw [Nat.zero_add]
  | step next attempted slice inductionHypothesis =>
      rw [Nat.succ_add]
      conv_lhs => unfold execute
      simp only [next, attempted]
      exact inductionHypothesis ends

/-- What some instructions do to the state of a backend, one after the other. -/
inductive Effects (backend : Backend wire state) : List Instruction → state → state → Prop
  | nil {before : state} : Effects backend [] before before
  | cons {instruction : Instruction} {rest : List Instruction} {before middle after : state}
      (head : backend.Effect instruction before middle)
      (tail : Effects backend rest middle after) :
      Effects backend (instruction :: rest) before after

theorem effect_of_attempt {backend : Backend wire state} {instruction : Instruction}
    {before after : Machine wire state} {checkpoint : Checkpoint}
    (attempted : attempt backend instruction before = (.ok checkpoint, after)) :
    backend.Effect instruction before.backend after.backend := by
  obtain ⟨middle, completed, _, rfl⟩ := attempt_eq_ok_iff.mp attempted
  exact completed.effect

/-- A slice that starts with the taint flag lowered does to its backend what the executed
instructions do. -/
theorem Slice.effects {backend : Backend wire state} {program : Program} {budget : Nat}
    {before after : Machine wire state} {executed : List Instruction} {ending : Break}
    (slice : Slice backend program budget before executed ending after)
    (lowered : before.processor.taint = {}) :
    Effects backend executed before.backend after.backend := by
  induction slice with
  | done finished => exact .nil
  | time next => exact .nil
  | restart next attempted =>
      obtain ⟨rfl, _⟩ := restart_of_attempt lowered attempted
      exact .nil
  | step next attempted slice inductionHypothesis =>
      exact .cons (effect_of_attempt attempted) (inductionHypothesis (taint_of_attempt attempted))

/-- A slice does to its backend what no more instructions do than its budget allows. -/
theorem Slice.effects_le {backend : Backend wire state} {program : Program} {budget : Nat}
    {before after : Machine wire state} {executed : List Instruction} {ending : Break}
    (slice : Slice backend program budget before executed ending after) :
    ∃ attempted, attempted.length ≤ budget ∧
      Effects backend attempted before.backend after.backend := by
  induction slice with
  | done finished => exact ⟨[], Nat.zero_le _, .nil⟩
  | time next => exact ⟨[], Nat.zero_le _, .nil⟩
  | restart next attempted =>
      exact ⟨[_], by simp, .cons (effect_of_attempt attempted) .nil⟩
  | step next attempted slice inductionHypothesis =>
      obtain ⟨rest, bound, effects⟩ := inductionHypothesis
      exact ⟨_ :: rest, by simpa using bound, .cons (effect_of_attempt attempted) effects⟩

/-- A slice leaves the taint flag lowered if it finds it lowered. -/
theorem Slice.taint {backend : Backend wire state} {program : Program} {budget : Nat}
    {before after : Machine wire state} {executed : List Instruction} {ending : Break}
    (slice : Slice backend program budget before executed ending after)
    (lowered : before.processor.taint = {}) : after.processor.taint = {} := by
  induction slice with
  | done finished => exact lowered
  | time next => exact lowered
  | restart next attempted => exact taint_of_attempt attempted
  | step next attempted slice inductionHypothesis =>
      exact inductionHypothesis (taint_of_attempt attempted)

/-- A slice has at most as many instructions as its budget allows. -/
theorem Slice.length_le {backend : Backend wire state} {program : Program} {budget : Nat}
    {before after : Machine wire state} {executed : List Instruction} {ending : Break}
    (slice : Slice backend program budget before executed ending after) :
    executed.length ≤ budget := by
  induction slice with
  | done finished => exact Nat.zero_le _
  | time next => exact Nat.zero_le _
  | restart next attempted => exact Nat.zero_le _
  | step next attempted slice inductionHypothesis =>
      rw [List.length_cons]
      omega

end Machine

end Garbling
