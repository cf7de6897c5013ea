import Mathlib
import Garbling.Proofs.Action
import Garbling.Proofs.Calls

/-!
# Accesses in range

A guarded machine executes instructions like a machine, except that it has no outcome once it
writes a register that does not exist, reads or writes a clear register that does not exist, looks
up a value behind the end of the log, uses a memory cell behind the end of the memory, or takes the
log apart behind its end. On a well-formed machine of a program the guards make no difference, and
the machine stays well formed, whatever is called in whatever order.
-/

namespace Garbling

/-- A computation that has no outcome once it uses an index that is out of range. -/
abbrev Guarded (state result : Type) := ExceptT Error (StateT state Option) result

namespace Guarded

variable {σ α β : Type}

/-- An action that uses an index, which must be in range. -/
def access (inRange : σ → Bool) (action : Action σ α) : Guarded σ α := fun state =>
  if inRange state then some (action state) else none

/-- An action that uses no index. -/
def free (action : Action σ α) : Guarded σ α := fun state => some (action state)

/-- The outcome of a computation, if it has one, and the state that it leaves behind. -/
def runFrom (guarded : Guarded σ α) (state : σ) : Option (Except Error α × σ) := guarded state

theorem runFrom_bind (guarded : Guarded σ α) (next : α → Guarded σ β) (state : σ) :
    (guarded >>= next).runFrom state =
      match guarded.runFrom state with
      | none => none
      | some (.ok value, state) => (next value).runFrom state
      | some (.error error, state) => some (.error error, state) := by
  change Option.bind (guarded state) (fun found => ExceptT.bindCont next found.1 found.2) = _
  simp only [runFrom]
  rcases guarded state with _ | ⟨_ | value, state⟩ <;> rfl

end Guarded

namespace Processor

/-- The clear register exists, and if it refers to an open value then the log holds that value. -/
def readsInRange {wire : Type} (processor : Processor wire) (register : Register) : Bool :=
  decide (register.toNat < processor.clears.size) &&
    match processor.clears.getD register.toNat .unset with
    | .revealed index =>
        !decide (index < processor.log.opened) || decide (index < processor.log.values.size)
    | _ => true

end Processor

namespace Memory

variable {wire : Type}

/-- If the sum of a base and an offset is an address then the memory has a cell there. -/
def cellInRange (memory : Memory wire) (base offset : UInt64) : Bool :=
  match memory.address base offset with
  | .ok address => decide (address < memory.cells.size)
  | .error _ => true

/-- Only sums inside the memory are addresses. -/
theorem cellInRange_eq_true (memory : Memory wire) (base offset : UInt64) :
    memory.cellInRange base offset = true := by
  rw [cellInRange, address]
  split
  · next address found =>
      split at found
      · next below =>
          cases found
          exact decide_eq_true below
      · cases found
  · rfl

end Memory

namespace Machine

variable {wire state : Type}

/-- Puts a wire into a secret register, which must exist. -/
def guardedWrite (register : Register) (value : wire) : Guarded (Machine wire state) Unit :=
  .access (fun machine => decide (register.toNat < machine.processor.secrets.size))
    (write register value)

/-- Puts something into a clear register, which must exist. -/
def guardedWriteClear (register : Register) (clear : Clear) : Guarded (Machine wire state) Unit :=
  .access (fun machine => decide (register.toNat < machine.processor.clears.size))
    (writeClear register clear)

/-- The value of a clear register, which must exist, as must the value that it refers to. -/
def guardedReadClear (register : Register) : Guarded (Machine wire state) (Option UInt64) :=
  .access (fun machine => machine.processor.readsInRange register) (readClear register)

/-- Stores a wire in a memory cell, which must exist. -/
def guardedStore (base offset : UInt64) (value : wire) : Guarded (Machine wire state) Unit :=
  .access (fun machine => machine.memory.cellInRange base offset) do
    let memory ← checked ((← get).memory.store base offset value)
    modify fun machine => { machine with memory }

/-- Loads a wire from a memory cell, which must exist. -/
def guardedLoad (base offset : UInt64) : Guarded (Machine wire state) wire :=
  .access (fun machine => machine.memory.cellInRange base offset) do
    checked ((← get).memory.load base offset)

/-- Executes one instruction, all of whose indices must be in range. -/
def guardedStep (backend : Backend wire state) : Instruction → Guarded (Machine wire state) Unit
  | .garblerInput dst => do guardedWrite dst (← Guarded.free (perform backend.garblerInput))
  | .evaluatorInput dst => do guardedWrite dst (← Guarded.free (perform backend.evaluatorInput))
  | .xor dst lhs rhs => do
      let left ← Guarded.free (read lhs)
      let right ← Guarded.free (read rhs)
      guardedWrite dst (backend.xor left right)
  | .and dst lhs rhs => do
      let left ← Guarded.free (read lhs)
      let right ← Guarded.free (read rhs)
      guardedWrite dst (← Guarded.free (perform (backend.and left right)))
  | .not dst src => do guardedWrite dst (backend.not (← Guarded.free (read src)))
  | .reveal dst src => do
      let wires ← Guarded.free (readAll src)
      let value ← Guarded.free (perform (backend.reveal wires))
      guardedWriteClear dst (.revealed (← get).processor.log.values.size)
      modify fun machine =>
        { machine with processor.log := machine.processor.log.push value }
  | .output src => do
      Guarded.free (perform (backend.output (← Guarded.free (readAll src))))
  | .constant dst value => guardedWriteClear dst (.constant value)
  | .store src base offset => do
      let value ← Guarded.free (read src)
      if let some offset ← guardedReadClear offset then
        guardedStore base offset value
  | .load dst base offset => do
      if let some offset ← guardedReadClear offset then
        guardedWrite dst (← guardedLoad base offset)
  | .jumpIfZero condition target => do
      if let some value ← guardedReadClear condition then
        if value = 0 then Guarded.free (jump target)
  | .jump target => Guarded.free (jump target)

/-- Executes one instruction, all of whose indices must be in range, and reads the taint flag. -/
def guardedAttempt (backend : Backend wire state) (instruction : Instruction)
    (machine : Machine wire state) : Option (Except Error Checkpoint × Machine wire state) :=
  match (guardedStep backend instruction).runFrom
      { machine with processor := machine.processor.advance } with
  | none => none
  | some (.error error, machine) => some (.error error, machine)
  | some (.ok (), machine) =>
      let (checkpoint, taint) := machine.processor.taint.checkpoint
      some (.ok checkpoint, { machine with processor := { machine.processor with taint } })

/-- Executes at most `budget` instructions, all of whose indices must be in range. -/
def guardedExecute (backend : Backend wire state) (program : Program) :
    (budget : Nat) → Machine wire state → Option (Except Error Break × Machine wire state)
  | budget, machine =>
      match program.instructions[machine.processor.counter]?, budget with
      | none, _ => some (.ok .done, machine)
      | some _, 0 => some (.ok .time, machine)
      | some instruction, budget + 1 =>
          match guardedAttempt backend instruction machine with
          | none => none
          | some (.error error, machine) => some (.error error, machine)
          | some (.ok .restartRequested, machine) => some (.ok .restart, machine)
          | some (.ok .proceed, machine) => guardedExecute backend program budget machine

/-- Carries out a call, all of whose indices must be in range. The log is taken apart at its
watermark to open values. -/
def guardedCall (backend : Backend wire state) (program : Program) :
    Call → Machine wire state → Option (Reply × Machine wire state)
  | .execute budget, machine =>
      (machine.guardedExecute backend program budget).map fun (outcome, machine) =>
        (.executed outcome, machine)
  | .rewind, machine => some (machine.call backend program .rewind)
  | call, machine =>
      if machine.processor.log.opened ≤ machine.processor.log.values.size then
        some (machine.call backend program call)
      else none

/-- Carries out some calls, all of whose indices must be in range. -/
def guardedCallAll (backend : Backend wire state) (program : Program) :
    List Call → Machine wire state → Option (List Reply × Machine wire state)
  | [], machine => some ([], machine)
  | call :: rest, machine => do
      let (reply, machine) ← machine.guardedCall backend program call
      let (replies, machine) ← guardedCallAll backend program rest machine
      return (reply :: replies, machine)

/-- From machines that fulfil `before`, a guarded computation does what an action does. If it
succeeds then `after` holds, and if it fails then the machine is well formed. -/
def Covers {α : Type} (program : Program) (before : Machine wire state → Prop)
    (guarded : Guarded (Machine wire state) α) (action : Action (Machine wire state) α)
    (after : α → Machine wire state → Prop) : Prop :=
  ∀ machine, before machine →
    guarded.runFrom machine = some (action.runFrom machine) ∧
      match action.runFrom machine with
      | (.ok value, next) => after value next
      | (.error _, next) => next.WellFormed program

section

variable {program : Program} {α β : Type} {before : Machine wire state → Prop}

theorem Covers.bind {guarded : Guarded (Machine wire state) α}
    {action : Action (Machine wire state) α} {middle : α → Machine wire state → Prop}
    {guardedNext : α → Guarded (Machine wire state) β}
    {next : α → Action (Machine wire state) β} {after : β → Machine wire state → Prop}
    (first : Covers program before guarded action middle)
    (rest : ∀ value, Covers program (middle value) (guardedNext value) (next value) after) :
    Covers program before (guarded >>= guardedNext) (action >>= next) after := by
  intro machine holds
  obtain ⟨same, reached⟩ := first machine holds
  rw [Guarded.runFrom_bind, Action.runFrom_bind, same]
  generalize action.runFrom machine = found at reached
  obtain ⟨error | value, machine⟩ := found
  · exact ⟨rfl, reached⟩
  · exact rest value machine reached

/-- A well-formed machine fits the program. -/
theorem Covers.fits {guarded : Guarded (Machine wire state) α}
    {action : Action (Machine wire state) α}
    (covers : Covers program before guarded action fun _ => WellFormed program) :
    Covers program before guarded action fun _ => Fits program := by
  intro machine holds
  obtain ⟨same, reached⟩ := covers machine holds
  refine ⟨same, ?_⟩
  generalize action.runFrom machine = found at reached
  obtain ⟨error | value, next⟩ := found
  · exact reached
  · exact reached.toFits

theorem covers_pure (value : α) :
    Covers program before (pure value) (pure value) fun _ => before :=
  fun _ holds => ⟨rfl, holds⟩

/-- What the backend does leaves a machine well formed. -/
theorem covers_perform (action : Action state α) :
    Covers program (WellFormed program) (Guarded.free (perform action : Action (Machine wire state) α))
      (perform action) fun _ => WellFormed program := by
  intro machine wellFormed
  refine ⟨rfl, ?_⟩
  have outcome : (perform action).runFrom machine =
      ((action.runFrom machine.backend).1,
        { machine with backend := (action.runFrom machine.backend).2 }) := rfl
  have next : WellFormed program { machine with backend := (action.runFrom machine.backend).2 } :=
    ⟨wellFormed.withBackend _, wellFormed.lowered⟩
  rw [outcome]
  cases (action.runFrom machine.backend).1 <;> exact next

/-- A computation that changes nothing leaves a machine well formed. -/
theorem covers_checked (outcome : Machine wire state → Except ExecutionError α) :
    Covers program (WellFormed program)
      (Guarded.free (do checked (outcome (← get)) : Action (Machine wire state) α))
      (do checked (outcome (← get))) fun _ => WellFormed program := by
  intro machine wellFormed
  refine ⟨rfl, ?_⟩
  rw [Action.runFrom_get_bind]
  cases outcome machine <;> exact wellFormed

theorem covers_read (register : Register) :
    Covers program (WellFormed program)
      (Guarded.free (read register : Action (Machine wire state) wire)) (read register)
      fun _ => WellFormed program :=
  covers_checked fun machine => machine.processor.read register

theorem covers_readAll (registers : List Register) :
    Covers program (WellFormed program)
      (Guarded.free (readAll registers : Action (Machine wire state) (List wire)))
      (readAll registers) fun _ => WellFormed program :=
  covers_checked fun machine => machine.processor.readAll registers

theorem covers_write {register : Register} (bound : register.toNat < program.secretRegisters)
    (value : wire) :
    Covers program (@WellFormed wire state program) (guardedWrite register value)
      (write register value) fun _ => WellFormed program := by
  intro machine wellFormed
  refine ⟨if_pos (decide_eq_true (bound.trans_eq wellFormed.secrets.symm)), ?_⟩
  exact ⟨wellFormed.write register value, wellFormed.lowered⟩

theorem covers_constant {register : Register}
    (bound : register.toNat < program.clearRegisters) (value : UInt64) :
    Covers program (@WellFormed wire state program)
      (guardedWriteClear register (.constant value)) (writeClear register (.constant value))
      fun _ => WellFormed program := by
  intro machine wellFormed
  refine ⟨if_pos (decide_eq_true (bound.trans_eq wellFormed.clears.symm)), ?_⟩
  exact ⟨wellFormed.constant register value, wellFormed.lowered⟩

/-- Between its two halves, the logging of a value leaves a clear register with a reference to a
value that is not in the log yet. Neither half can fail. -/
theorem covers_reveal {register : Register} (bound : register.toNat < program.clearRegisters)
    (value : Option UInt64) :
    Covers program (@WellFormed wire state program)
      (do
        guardedWriteClear register (.revealed (← get).processor.log.values.size)
        modify fun machine => { machine with processor.log := machine.processor.log.push value })
      (do
        writeClear register (.revealed (← get).processor.log.values.size)
        modify fun machine => { machine with processor.log := machine.processor.log.push value })
      fun _ => WellFormed program := by
  intro machine wellFormed
  have written : (guardedWriteClear register
      (.revealed machine.processor.log.values.size)).runFrom machine =
        some ((writeClear register (.revealed machine.processor.log.values.size)).runFrom machine) :=
    if_pos (decide_eq_true (bound.trans_eq wellFormed.clears.symm))
  refine ⟨?_, wellFormed.reveal register value, wellFormed.lowered⟩
  change ((guardedWriteClear register (.revealed machine.processor.log.values.size) >>= fun _ =>
    modify fun machine => { machine with processor.log := machine.processor.log.push value }).runFrom
      machine) = _
  rw [Guarded.runFrom_bind, written]
  rfl

/-- Reading a clear register of a well-formed machine leaves it well formed if there is a value, and
raises the taint flag otherwise. -/
theorem covers_readClear {register : Register}
    (bound : register.toNat < program.clearRegisters) :
    Covers program (@WellFormed wire state program) (guardedReadClear register)
      (readClear register) fun found =>
        if found.isSome then WellFormed program else Fits program := by
  intro machine wellFormed
  have within : register.toNat < machine.processor.clears.size :=
    bound.trans_eq wellFormed.clears.symm
  have inRange : machine.processor.readsInRange register = true := by
    rw [Processor.readsInRange, decide_eq_true within, Bool.true_and]
    split
    · next index held =>
        rw [Array.getD_eq_getD_getElem?, Array.getElem?_eq_getElem within, Option.getD_some] at held
        have below := wellFormed.logged register.toNat index
          (by rw [Array.getElem?_eq_getElem within, held])
        simp [below]
    · rfl
  refine ⟨if_pos inRange, ?_⟩
  have outcome : (readClear register).runFrom machine =
      match machine.processor.readClear register with
      | .ok (value, processor) => (.ok value, machine.withProcessor processor)
      | .error error => (.error (.execution error), machine) := by
    rw [readClear, Action.runFrom_get_bind, Action.runFrom_bind]
    cases machine.processor.readClear register <;> rfl
  rw [outcome, Processor.readClear]
  cases machine.processor.clears.getD register.toNat .unset with
  | unset => exact wellFormed
  | constant value => exact wellFormed
  | revealed index =>
      by_cases isOpen : index < machine.processor.log.opened
      · simp only [if_pos isOpen]
        cases machine.processor.log.values[index]?.join with
        | none => exact wellFormed.toFits
        | some value => exact wellFormed
      · simp only [if_neg isOpen]
        exact wellFormed.flag _

theorem covers_store (base offset : UInt64) (value : wire) :
    Covers program (@WellFormed wire state program) (guardedStore base offset value)
      (do
        let memory ← checked ((← get).memory.store base offset value)
        modify fun machine => { machine with memory })
      fun _ => WellFormed program := by
  intro machine wellFormed
  refine ⟨if_pos (machine.memory.cellInRange_eq_true base offset), ?_⟩
  rw [Action.runFrom_get_bind, Action.runFrom_bind]
  cases stored : machine.memory.store base offset value with
  | error error => exact wellFormed
  | ok memory => exact ⟨wellFormed.store stored, wellFormed.lowered⟩

theorem covers_load (base offset : UInt64) :
    Covers program (@WellFormed wire state program) (guardedLoad base offset)
      (do checked ((← get).memory.load base offset)) fun _ => WellFormed program := by
  intro machine wellFormed
  refine ⟨if_pos (machine.memory.cellInRange_eq_true base offset), ?_⟩
  exact (covers_checked fun machine => machine.memory.load base offset) machine wellFormed |>.2

/-- A guarded jump into the program. -/
theorem covers_jump {target : UInt64} (within : target.toNat ≤ program.instructions.size) :
    Covers program (@WellFormed wire state program)
      (Guarded.free (jump target)) (jump target) fun _ => WellFormed program :=
  fun _ wellFormed => ⟨rfl, wellFormed.jump within, wellFormed.lowered⟩

/-- What an instruction does with the value of a clear register, if there is one. -/
theorem Covers.withClear {register : Register}
    (bound : register.toNat < program.clearRegisters)
    {guarded : UInt64 → Guarded (Machine wire state) Unit}
    {action : UInt64 → Action (Machine wire state) Unit}
    (covers : ∀ value,
      Covers program (WellFormed program) (guarded value) (action value) fun _ => WellFormed program) :
    Covers program (WellFormed program)
      (do if let some value ← guardedReadClear register then guarded value)
      (do if let some value ← readClear register then action value) fun _ => Fits program := by
  refine (covers_readClear bound).bind fun found => ?_
  cases found with
  | none => exact covers_pure ()
  | some value => exact (covers value).fits

/-- A guarded instruction of a program does what the instruction does. If it fails then the machine
is well formed, and if it succeeds then the taint flag may be raised. -/
theorem covers_step (backend : Backend wire state) {instruction : Instruction} {index : Nat}
    (found : program.instructions[index]? = some instruction) :
    Covers program (WellFormed program) (guardedStep backend instruction)
      (step backend instruction) fun _ => Fits program := by
  have member : instruction ∈ program.instructions := Array.mem_of_getElem? found
  have secret {register : Register} (mentions : register ∈ instruction.secrets) :
      register.toNat < program.secretRegisters := program.lt_secretRegisters member mentions
  have clear {register : Register} (mentions : register ∈ instruction.clears) :
      register.toNat < program.clearRegisters := program.lt_clearRegisters member mentions
  cases instruction with
  | garblerInput dst | evaluatorInput dst =>
      have bound : dst.toNat < program.secretRegisters := secret (.head _)
      exact (covers_perform _).bind fun wire => (covers_write bound wire).fits
  | xor dst lhs rhs =>
      have bound : dst.toNat < program.secretRegisters := secret (.head _)
      exact (covers_read lhs).bind fun left => (covers_read rhs).bind fun right =>
        (covers_write bound _).fits
  | and dst lhs rhs =>
      have bound : dst.toNat < program.secretRegisters := secret (.head _)
      exact (covers_read lhs).bind fun left => (covers_read rhs).bind fun right =>
        (covers_perform _).bind fun wire => (covers_write bound wire).fits
  | not dst src =>
      have bound : dst.toNat < program.secretRegisters := secret (.head _)
      exact (covers_read src).bind fun wire => (covers_write bound _).fits
  | reveal dst src =>
      have bound : dst.toNat < program.clearRegisters := clear (.head _)
      exact (covers_readAll src).bind fun wires => (covers_perform _).bind fun value =>
        (covers_reveal bound value).fits
  | output src => exact (covers_readAll src).bind fun wires => (covers_perform _).fits
  | constant dst value =>
      have bound : dst.toNat < program.clearRegisters := clear (.head _)
      exact (covers_constant bound value).fits
  | store src base offset =>
      have bound : offset.toNat < program.clearRegisters := clear (.head _)
      exact (covers_read src).bind fun value =>
        Covers.withClear bound fun offset => covers_store base offset value
  | load dst base offset =>
      have bound : offset.toNat < program.clearRegisters := clear (.head _)
      have written : dst.toNat < program.secretRegisters := secret (.head _)
      exact Covers.withClear bound fun offset =>
        (covers_load base offset).bind fun value => covers_write written value
  | jumpIfZero condition target =>
      have bound : condition.toNat < program.clearRegisters := clear (.head _)
      refine Covers.withClear bound fun value => ?_
      by_cases zero : value = 0
      · rw [if_pos zero, if_pos zero]
        exact covers_jump (program.target_le found rfl)
      · rw [if_neg zero, if_neg zero]
        exact covers_pure ()
  | jump target => exact (covers_jump (program.target_le found rfl)).fits

variable (backend : Backend wire state) {machine : Machine wire state}

/-- The guards make no difference to an attempt, which leaves a machine well formed. -/
theorem WellFormed.attempt (wellFormed : machine.WellFormed program) {instruction : Instruction}
    (found : program.instructions[machine.processor.counter]? = some instruction) :
    machine.guardedAttempt backend instruction = some (machine.attempt backend instruction) ∧
      (machine.attempt backend instruction).2.WellFormed program := by
  have below : machine.processor.counter < program.instructions.size :=
    (Array.getElem?_eq_some_iff.mp found).1
  have advanced : WellFormed program (machine.withProcessor machine.processor.advance) :=
    ⟨wellFormed.jump below, wellFormed.lowered⟩
  obtain ⟨same, reached⟩ := covers_step backend found _ advanced
  have outcome : machine.attempt backend instruction =
      match (step backend instruction).runFrom
        (machine.withProcessor machine.processor.advance) with
      | (.error error, next) => (.error error, next)
      | (.ok (), next) => (.ok next.processor.taint.checkpoint.1,
          next.withProcessor { next.processor with taint := {} }) := rfl
  have guardedOutcome : machine.guardedAttempt backend instruction =
      match (guardedStep backend instruction).runFrom
        (machine.withProcessor machine.processor.advance) with
      | none => none
      | some (.error error, next) => some (.error error, next)
      | some (.ok (), next) => some (.ok next.processor.taint.checkpoint.1,
          next.withProcessor { next.processor with taint := {} }) := rfl
  rw [outcome, guardedOutcome, same]
  generalize (step backend instruction).runFrom _ = after at reached
  obtain ⟨error | value, next⟩ := after
  · exact ⟨rfl, reached⟩
  · exact ⟨rfl, reached.flag {}, rfl⟩

/-- The guards make no difference to a slice, which leaves a machine well formed. -/
theorem WellFormed.execute (wellFormed : machine.WellFormed program) (budget : Nat) :
    machine.guardedExecute backend program budget = some (machine.execute backend program budget) ∧
      (machine.execute backend program budget).2.WellFormed program := by
  induction budget generalizing machine with
  | zero =>
      unfold guardedExecute Machine.execute
      cases program.instructions[machine.processor.counter]? <;> exact ⟨rfl, wellFormed⟩
  | succ budget inductionHypothesis =>
      unfold guardedExecute Machine.execute
      cases found : program.instructions[machine.processor.counter]? with
      | none => exact ⟨rfl, wellFormed⟩
      | some instruction =>
          obtain ⟨same, reached⟩ := wellFormed.attempt backend found
          simp only [same]
          generalize machine.attempt backend instruction = after at reached
          obtain ⟨error | checkpoint, next⟩ := after
          · exact ⟨rfl, reached⟩
          · cases checkpoint with
            | restartRequested => exact ⟨rfl, reached⟩
            | proceed => exact inductionHypothesis reached

/-- The guards make no difference to a call, which leaves a machine well formed. -/
theorem WellFormed.call (wellFormed : machine.WellFormed program) (call : Call) :
    machine.guardedCall backend program call = some (machine.call backend program call) ∧
      (machine.call backend program call).2.WellFormed program := by
  cases call with
  | execute budget =>
      obtain ⟨same, reached⟩ := wellFormed.execute backend budget
      refine ⟨?_, reached⟩
      rw [guardedCall, same]
      rfl
  | rewind => exact ⟨rfl, wellFormed.rewind⟩
  | takeOpenings => exact ⟨if_pos wellFormed.opened, wellFormed.takeOpenings⟩
  | applyOpenings openings => exact ⟨if_pos wellFormed.opened, wellFormed.applyOpenings openings⟩

end

/-- Whatever is called on a machine of a program in whatever order, whether the calls fail or not,
no index is out of range: the guards make no difference. Afterwards the registers and the memory
still have the sizes of the program, the counter is inside the program or at its end, the watermark
and all references to the log are inside the log, and the taint flag is lowered. -/
theorem accesses_in_range (backend : Backend wire state) (program : Program) (initial : state)
    (calls : List Call) :
    let machine := Machine.start program initial
    let after := (machine.callAll backend program calls).2
    machine.guardedCallAll backend program calls = some (machine.callAll backend program calls) ∧
      after.processor.secrets.size = program.secretRegisters ∧
      after.processor.clears.size = program.clearRegisters ∧
      after.memory.cells.size = program.memorySize.toNat ∧
      after.processor.counter ≤ program.instructions.size ∧
      after.processor.log.opened ≤ after.processor.log.values.size ∧
      (∀ place index : Nat, after.processor.clears[place]? = some (.revealed index) →
        index < after.processor.log.values.size) ∧
      after.processor.taint = {} := by
  have safe (machine : Machine wire state) (wellFormed : machine.WellFormed program) :
      machine.guardedCallAll backend program calls = some (machine.callAll backend program calls) ∧
        (machine.callAll backend program calls).2.WellFormed program := by
    induction calls generalizing machine with
    | nil => exact ⟨rfl, wellFormed⟩
    | cons call rest inductionHypothesis =>
        obtain ⟨same, reached⟩ := wellFormed.call backend call
        obtain ⟨others, last⟩ := inductionHypothesis _ reached
        refine ⟨?_, last⟩
        simp only [guardedCallAll, same, Option.bind_eq_bind, Option.bind_some, others]
        rfl
  obtain ⟨same, wellFormed⟩ := safe _ (.start program initial)
  exact ⟨same, wellFormed.secrets, wellFormed.clears, wellFormed.cells, wellFormed.counter,
    wellFormed.opened, wellFormed.logged, wellFormed.lowered⟩

end Machine

end Garbling
