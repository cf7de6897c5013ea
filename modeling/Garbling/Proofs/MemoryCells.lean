import Mathlib
import Garbling.Proofs.Atomicity
import Garbling.Proofs.Cells
import Garbling.Proofs.Footprints

/-!
# Memory cells

A machine stores to the cell at a sum and loads from it, so a load gives what was stored to its sum
last, whatever else has happened in between. What has happened to a machine between two moments is
given by the stores that it has carried out.
-/

namespace Garbling

variable {wire state : Type}

namespace Memory

/-- The memory after some stores, each of a wire to an address. -/
def putAll (memory : Memory wire) (stores : List (Nat × wire)) : Memory wire :=
  stores.foldl (fun memory store => memory.put store.1 store.2) memory

variable (memory : Memory wire) {address : Nat} (stores : List (Nat × wire))

theorem putAll_append (more : List (Nat × wire)) :
    memory.putAll (stores ++ more) = (memory.putAll stores).putAll more :=
  List.foldl_append

@[simp] theorem size_putAll : (memory.putAll stores).cells.size = memory.cells.size := by
  induction stores generalizing memory with
  | nil => rfl
  | cons store rest inductionHypothesis =>
      exact (inductionHypothesis _).trans (memory.size_put store.2)

/-- Stores to other addresses leave a cell as it was. -/
theorem get?_putAll (elsewhere : ∀ store ∈ stores, store.1 ≠ address) :
    (memory.putAll stores).get? address = memory.get? address := by
  induction stores generalizing memory with
  | nil => rfl
  | cons store rest inductionHypothesis =>
      obtain ⟨first, others⟩ := List.forall_mem_cons.mp elsewhere
      exact (inductionHypothesis _ others).trans (memory.get?_put_of_ne store.2 first)

end Memory

namespace Processor

/-- The register gives the processor a value: a public constant, or a logged value that is open. -/
inductive Tells (processor : Processor wire) (register : Register) (value : UInt64) : Prop
  | constant (held : processor.clears[register.toNat]? = some (.constant value))
  | opened {index : Nat} (held : processor.clears[register.toNat]? = some (.revealed index))
      (opened : index < processor.log.opened)
      (logged : processor.log.values[index]? = some (some value))

variable {processor after : Processor wire} {register : Register} {value : UInt64}

/-- What a clear register holds, if it holds something. -/
theorem clears_eq_some {clear : Clear}
    (held : processor.clears.getD register.toNat .unset = clear) (set : clear ≠ .unset) :
    processor.clears[register.toNat]? = some clear := by
  rw [Array.getD_eq_getD_getElem?] at held
  cases found : processor.clears[register.toNat]? with
  | none =>
      rw [found] at held
      exact absurd held.symm set
  | some other =>
      rw [found] at held
      exact congrArg some held

theorem Tells.readClear (tells : processor.Tells register value) :
    processor.readClear register = .ok (some value, processor) := by
  rw [Processor.readClear, Array.getD_eq_getD_getElem?]
  cases tells with
  | constant held => rw [held, Option.getD_some]
  | opened held opened logged =>
      rw [held, Option.getD_some]
      simp only [opened, logged, ↓reduceIte, Option.join_some]

/-- A register that is read with a value gives that value, and reading it changes nothing. -/
theorem tells_of_readClear (success : processor.readClear register = .ok (some value, after)) :
    processor.Tells register value ∧ after = processor := by
  unfold Processor.readClear at success
  split at success
  · cases success
  · next constant held =>
      cases success
      exact ⟨.constant (clears_eq_some held nofun), rfl⟩
  · next index held =>
      split at success
      · next opened =>
          obtain ⟨logged, rfl⟩ := Prod.mk.inj (Except.ok.inj success)
          exact ⟨.opened (clears_eq_some held nofun) opened (Option.join_eq_some_iff.mp logged), rfl⟩
      · cases success

/-- Only the clear registers and the log matter. -/
theorem Tells.of_eq (tells : processor.Tells register value) {other : Processor wire}
    (clears : other.clears = processor.clears) (log : other.log = processor.log) :
    other.Tells register value := by
  cases tells with
  | constant held => exact .constant (clears ▸ held)
  | opened held opened logged => exact .opened (clears ▸ held) (log ▸ opened) (log ▸ logged)

/-- A register that exists holds what is written into it. -/
theorem read_write {wrote : wire} (within : register.toNat < processor.secrets.size) :
    (processor.write register wrote).read register = .ok wrote := by
  simp only [read, write, Array.getElem?_setIfInBounds_self_of_lt within, Option.join_some]

theorem Tells.advance (tells : processor.Tells register value) :
    processor.advance.Tells register value :=
  tells.of_eq rfl rfl

theorem Tells.addressOf_store (tells : processor.Tells register value) (src : Register)
    (base : UInt64) :
    processor.addressOf (.store src base register) = some (base.toNat + value.toNat) := by
  simp only [addressOf, tells.readClear]

end Processor

namespace Machine

/-- The store that an instruction is about to carry out, if it carries out one. -/
def stored? (machine : Machine wire state) : Instruction → Option (Nat × wire)
  | .store src base offset =>
      match machine.processor.read src, machine.processor.addressOf (.store src base offset) with
      | .ok value, some address =>
          if address < machine.memory.cells.size then some (address, value) else none
      | _, _ => none
  | _ => none

section

variable {backend : Backend wire state} {machine : Machine wire state} {offset : Register}
  {chosen : UInt64}

/-- A store succeeds exactly if its sum is below the size of the memory. -/
theorem runFrom_store (backend : Backend wire state) (machine : Machine wire state)
    {src : Register} {value : wire}
    (read : machine.processor.read src = .ok value)
    (tells : machine.processor.Tells offset chosen) (base : UInt64) :
    (step backend (.store src base offset)).runFrom machine =
      if base.toNat + chosen.toNat < machine.memory.cells.size then
        (.ok (), { machine with memory := machine.memory.put (base.toNat + chosen.toNat) value })
      else
        (.error (.execution (machine.memory.outOfBounds (base.toNat + chosen.toNat))),
          machine) := by
  have clear : (Machine.readClear offset).runFrom machine = (.ok (some chosen), machine) :=
    runFrom_readClear_eq_ok.mpr ⟨_, tells.readClear, rfl⟩
  simp only [step, Action.runFrom_bind_of_ok (runFrom_read_eq_ok.mpr ⟨read, rfl⟩),
    Action.runFrom_bind_of_ok clear, Action.runFrom_get_bind, Memory.store_eq]
  split_ifs <;> rfl

/-- A load succeeds exactly if its sum is below the size of the memory and the cell there holds a
wire. -/
theorem runFrom_load (backend : Backend wire state) (machine : Machine wire state)
    (tells : machine.processor.Tells offset chosen) (dst : Register) (base : UInt64) :
    (step backend (.load dst base offset)).runFrom machine =
      if base.toNat + chosen.toNat < machine.memory.cells.size then
        match machine.memory.get? (base.toNat + chosen.toNat) with
        | some value =>
            (.ok (), { machine with processor := machine.processor.write dst value })
        | none =>
            (.error (.execution (.uninitializedMemory (base.toNat + chosen.toNat))), machine)
      else
        (.error (.execution (machine.memory.outOfBounds (base.toNat + chosen.toNat))),
          machine) := by
  have clear : (Machine.readClear offset).runFrom machine = (.ok (some chosen), machine) :=
    runFrom_readClear_eq_ok.mpr ⟨_, tells.readClear, rfl⟩
  simp only [step, Action.runFrom_bind_of_ok clear, Action.runFrom_get_bind, Memory.load_eq]
  split_ifs
  · cases machine.memory.get? (base.toNat + chosen.toNat) <;> rfl
  · rfl

/-- The store of an instruction: its wire is in a register, its sum is known and is in bounds. -/
theorem stored?_eq_some_iff {instruction : Instruction} {address : Nat} {value : wire} :
    machine.stored? instruction = some (address, value) ↔
      ∃ src base offset chosen, instruction = .store src base offset ∧
        machine.processor.read src = .ok value ∧ machine.processor.Tells offset chosen ∧
          base.toNat + chosen.toNat = address ∧ address < machine.memory.cells.size := by
  constructor
  · intro stored
    cases instruction with
    | store src base offset =>
        simp only [stored?, Processor.addressOf] at stored
        cases read : machine.processor.read src with
        | error error => simp [read] at stored
        | ok wire =>
            rcases clear : machine.processor.readClear offset with _ | ⟨_ | chosen, processor⟩
            · simp [read, clear] at stored
            · simp [read, clear] at stored
            · simp only [read, clear, Option.ite_none_right_eq_some, Option.some.injEq,
                Prod.mk.injEq] at stored
              obtain ⟨within, rfl, rfl⟩ := stored
              exact ⟨src, base, offset, chosen, rfl, read, (Processor.tells_of_readClear clear).1,
                rfl, within⟩
    | _ => cases stored
  · rintro ⟨src, base, offset, chosen, rfl, read, tells, rfl, within⟩
    simp only [stored?, read, tells.addressOf_store, within, ↓reduceIte]

/-- The program counter does not matter. -/
theorem stored?_advance (machine : Machine wire state) (instruction : Instruction) :
    stored? { machine with processor := machine.processor.advance } instruction =
      machine.stored? instruction := by
  refine Option.ext fun ⟨address, value⟩ => ?_
  simp only [stored?_eq_some_iff]
  constructor
  · rintro ⟨src, base, offset, chosen, rfl, read, tells, same, within⟩
    exact ⟨src, base, offset, chosen, rfl, read, tells.of_eq rfl rfl, same, within⟩
  · rintro ⟨src, base, offset, chosen, rfl, read, tells, same, within⟩
    exact ⟨src, base, offset, chosen, rfl, read, tells.of_eq rfl rfl, same, within⟩

/-- Completing an instruction that stores nothing leaves the memory as it was. -/
theorem Completes.memory_eq {instruction : Instruction} {after : Machine wire state}
    (completes : Completes backend instruction machine after)
    (unstored : machine.stored? instruction = none) : after.memory = machine.memory := by
  cases instruction with
  | store src base offset =>
      obtain ⟨value, found, processor, read, clear, stored⟩ := completes
      cases found with
      | none => rw [stored]
      | some chosen =>
          -- The sum cannot be in bounds, so nothing can have been stored to it.
          obtain ⟨memory, success, rfl⟩ := stored
          obtain ⟨within, rfl⟩ := Memory.store_eq_ok_iff.mp success
          have stored : machine.stored? (.store src base offset) = some (_, value) :=
            stored?_eq_some_iff.mpr ⟨src, base, offset, chosen, rfl, read,
              (Processor.tells_of_readClear clear).1, rfl, within⟩
          rw [unstored] at stored
          cases stored
  | garblerInput dst | evaluatorInput dst =>
      obtain ⟨value, rest, _, rfl⟩ := completes
      rfl
  | xor dst lhs rhs =>
      obtain ⟨left, right, _, _, rfl⟩ := completes
      rfl
  | and dst lhs rhs =>
      obtain ⟨left, right, value, rest, _, _, _, rfl⟩ := completes
      rfl
  | not dst src =>
      obtain ⟨value, _, rfl⟩ := completes
      rfl
  | reveal dst src =>
      obtain ⟨wires, value, rest, _, _, rfl⟩ := completes
      rfl
  | output src =>
      obtain ⟨wires, rest, _, _, rfl⟩ := completes
      rfl
  | constant dst value | jump target =>
      subst completes
      rfl
  | load dst base offset =>
      obtain ⟨found, processor, _, loaded⟩ := completes
      cases found with
      | none => rw [loaded]
      | some chosen =>
          obtain ⟨value, _, rfl⟩ := loaded
          rfl
  | jumpIfZero condition target =>
      obtain ⟨found, processor, _, rfl⟩ := completes
      rfl

/-- An attempt, whether it fails or not, carries out the store of its instruction and changes the
memory in no other way. -/
theorem memory_of_attempt (backend : Backend wire state) (instruction : Instruction)
    (machine : Machine wire state) :
    (attempt backend instruction machine).2.memory =
      machine.memory.putAll (machine.stored? instruction).toList := by
  rw [← stored?_advance]
  cases stored : stored? { machine with processor := machine.processor.advance } instruction with
  | some store =>
      obtain ⟨src, base, offset, chosen, rfl, read, tells, sum, within⟩ :=
        stored?_eq_some_iff.mp stored
      have outcome := (runFrom_store backend _ read tells base).trans (if_pos (sum ▸ within))
      have attempted := attempt_eq_ok_iff.mpr ⟨_, step_eq_ok_iff.mp outcome, rfl, rfl⟩
      rw [attempted, sum]
      rfl
  | none =>
      rcases attempted : attempt backend instruction machine with ⟨error | checkpoint, after⟩
      · rw [(interrupted_of_attempt attempted).kept]
        rfl
      · obtain ⟨middle, completes, _, rfl⟩ := attempt_eq_ok_iff.mp attempted
        exact completes.memory_eq stored

/-- A step that succeeds without raising the taint flag is an attempt that proceeds. -/
theorem attempt_of_step_ok {instruction : Instruction} {after : Machine wire state}
    (success : (step backend instruction).runFrom
      { machine with processor := machine.processor.advance } = (.ok (), after))
    (lowered : after.processor.taint = {}) :
    attempt backend instruction machine = (.ok .proceed, after) := by
  refine attempt_eq_ok_iff.mpr ⟨after, step_eq_ok_iff.mp success, ?_, ?_⟩
  · rw [lowered]
    rfl
  · rw [← lowered]

end

/-- The second machine is what becomes of the first one when instructions of the program are
attempted with any backends, and in between the machine is rewound, values are opened, or the
backend is put into another state. The stores that the instructions carry out are listed in
order. -/
inductive Undergoes (program : Program) :
    Machine wire state → List (Nat × wire) → Machine wire state → Prop
  | refl {machine : Machine wire state} : Undergoes program machine [] machine
  | attempt {before middle : Machine wire state} {stores : List (Nat × wire)}
      {instruction : Instruction} (undergoes : Undergoes program before stores middle)
      (backend : Backend wire state)
      (next : program.instructions[middle.processor.counter]? = some instruction) :
      Undergoes program before (stores ++ (middle.stored? instruction).toList)
        (middle.attempt backend instruction).2
  | rewind {before middle : Machine wire state} {stores : List (Nat × wire)}
      (undergoes : Undergoes program before stores middle) :
      Undergoes program before stores (middle.withProcessor middle.processor.rewind)
  | takeOpenings {before middle : Machine wire state} {stores : List (Nat × wire)}
      (undergoes : Undergoes program before stores middle) :
      Undergoes program before stores middle.takeOpenings.2
  | applyOpenings {before middle : Machine wire state} {stores : List (Nat × wire)}
      (undergoes : Undergoes program before stores middle) (openings : List UInt64) :
      Undergoes program before stores (middle.applyOpenings openings).2
  | handed {before middle : Machine wire state} {stores : List (Nat × wire)}
      (undergoes : Undergoes program before stores middle) (given : state) :
      Undergoes program before stores { middle with backend := given }

variable {program : Program} {before middle after : Machine wire state}
  {stores : List (Nat × wire)}

theorem memory_applyOpenings (machine : Machine wire state) (openings : List UInt64) :
    (machine.applyOpenings openings).2.memory = machine.memory := by
  unfold Machine.applyOpenings
  split <;> rfl

/-- The memory changes by the stores, and in no other way. -/
theorem Undergoes.memory (undergoes : Undergoes program before stores after) :
    after.memory = before.memory.putAll stores := by
  induction undergoes with
  | refl => rfl
  | attempt undergoes backend next inductionHypothesis =>
      rw [memory_of_attempt, inductionHypothesis, Memory.putAll_append]
  | rewind undergoes inductionHypothesis | takeOpenings undergoes inductionHypothesis
  | handed undergoes given inductionHypothesis => exact inductionHypothesis
  | applyOpenings undergoes openings inductionHypothesis =>
      rw [memory_applyOpenings, inductionHypothesis]

theorem Undergoes.wellFormed (undergoes : Undergoes program before stores after)
    (wellFormed : before.WellFormed program) : after.WellFormed program := by
  induction undergoes with
  | refl => exact wellFormed
  | attempt undergoes backend next inductionHypothesis =>
      exact (inductionHypothesis.attempt backend next).2
  | rewind undergoes inductionHypothesis => exact inductionHypothesis.rewind
  | takeOpenings undergoes inductionHypothesis => exact inductionHypothesis.takeOpenings
  | applyOpenings undergoes openings inductionHypothesis =>
      exact inductionHypothesis.applyOpenings openings
  | handed undergoes given inductionHypothesis => exact inductionHypothesis.handed given

/-- Completed instructions are attempted one after the other. -/
theorem Advances.undergoes {backend : Backend wire state} {executed : List Instruction}
    (advances : Advances backend program middle executed after)
    (undergoes : Undergoes program before stores middle) :
    ∃ more, Undergoes program before (stores ++ more) after := by
  induction advances generalizing stores with
  | refl => exact ⟨[], (List.append_nil stores).symm ▸ undergoes⟩
  | step next attempted others inductionHypothesis =>
      have attempt := undergoes.attempt backend next
      rw [attempted] at attempt
      obtain ⟨more, reached⟩ := inductionHypothesis attempt
      exact ⟨_, List.append_assoc .. ▸ reached⟩

/-- A slice, however it ends, is a number of attempts. -/
theorem Undergoes.execute (undergoes : Undergoes program before stores middle)
    (backend : Backend wire state) (budget : Nat) :
    ∃ more, Undergoes program before (stores ++ more)
      (middle.execute backend program budget).2 := by
  obtain ⟨executed, last, left, _, advances, stops⟩ :=
    execute_eq_iff.mp (rfl : middle.execute backend program budget = _)
  obtain ⟨more, reached⟩ := advances.undergoes undergoes
  generalize middle.execute backend program budget = result at stops
  cases stops with
  | done finished | time next => exact ⟨more, reached⟩
  | restart next attempted | failed next attempted =>
      have attempt := reached.attempt backend next
      rw [attempted, List.append_assoc] at attempt
      exact ⟨_, attempt⟩

/-- Whatever calls lead from one machine to another, their effect on the memory is a list of
stores. -/
theorem Leads.undergoes (leads : Leads program before after) :
    ∃ stores, Undergoes program before stores after := by
  induction leads with
  | refl => exact ⟨[], .refl⟩
  | call leads backend call inductionHypothesis =>
      obtain ⟨stores, undergoes⟩ := inductionHypothesis
      cases call with
      | execute budget =>
          obtain ⟨more, reached⟩ := undergoes.execute backend budget
          exact ⟨stores ++ more, reached⟩
      | rewind => exact ⟨stores, undergoes.rewind⟩
      | takeOpenings => exact ⟨stores, undergoes.takeOpenings⟩
      | applyOpenings openings => exact ⟨stores, undergoes.applyOpenings openings⟩
  | handed leads given inductionHypothesis =>
      obtain ⟨stores, undergoes⟩ := inductionHypothesis
      exact ⟨stores, undergoes.handed given⟩

section

variable {backend : Backend wire state} {machine : Machine wire state} {offset : Register}
  {base chosen : UInt64} {value : wire}

/-- A wire is loaded from the cell at the sum. -/
theorem attempt_load_of_held (tells : machine.processor.Tells offset chosen)
    (lowered : machine.processor.taint = {})
    (within : base.toNat + chosen.toNat < machine.memory.cells.size)
    (held : machine.memory.get? (base.toNat + chosen.toNat) = some value) (dst : Register) :
    attempt backend (.load dst base offset) machine =
      (.ok .proceed, { machine with processor := machine.processor.advance.write dst value }) := by
  refine attempt_of_step_ok ((runFrom_load backend _ tells.advance dst base).trans ?_) lowered
  simp only [within, held, ↓reduceIte]

/-- Nothing is loaded from a cell that holds nothing. -/
theorem attempt_load_of_empty (tells : machine.processor.Tells offset chosen)
    (within : base.toNat + chosen.toNat < machine.memory.cells.size)
    (held : machine.memory.get? (base.toNat + chosen.toNat) = none) (dst : Register) :
    attempt backend (.load dst base offset) machine =
      (.error (.execution (.uninitializedMemory (base.toNat + chosen.toNat))),
        { machine with processor := machine.processor.advance }) := by
  refine attempt_of_step_error ((runFrom_load backend _ tells.advance dst base).trans ?_)
  simp only [within, held, ↓reduceIte]

/-- The cell at the sum of a store that succeeds holds its wire, until another store to the sum is
carried out. -/
theorem Undergoes.get?_of_stored {src : Register} {checkpoint : Checkpoint}
    (read : machine.processor.read src = .ok value)
    (tells : machine.processor.Tells offset chosen)
    (stored : Machine.attempt backend (.store src base offset) machine = (.ok checkpoint, middle))
    (undergoes : Undergoes program middle stores after)
    (elsewhere : ∀ store ∈ stores, store.1 ≠ base.toNat + chosen.toNat) :
    base.toNat + chosen.toNat < after.memory.cells.size ∧
      after.memory.get? (base.toNat + chosen.toNat) = some value := by
  have within : base.toNat + chosen.toNat < machine.memory.cells.size := by
    by_contra beyond
    have fails := (runFrom_store backend { machine with processor := machine.processor.advance }
      read tells.advance base).trans (if_neg beyond)
    rw [attempt_of_step_error fails] at stored
    cases stored
  have carriedOut : machine.stored? (.store src base offset) = some (_, value) :=
    stored?_eq_some_iff.mpr ⟨src, base, offset, chosen, rfl, read, tells, rfl, within⟩
  have put : middle.memory = machine.memory.put (base.toNat + chosen.toNat) value := by
    have outcome := memory_of_attempt backend (.store src base offset) machine
    rw [stored, carriedOut] at outcome
    exact outcome
  rw [undergoes.memory, put, Memory.size_putAll, Memory.size_put,
    Memory.get?_putAll _ _ elsewhere, Memory.get?_put _ _ within]
  exact ⟨within, if_pos rfl⟩

end

/-- The memory of a machine of the program is an array that is indexed by the true sum of a base and
an offset. -/
structure IndexedBySums (wire state : Type) (program : Program) : Prop where
  /-- A store whose offset is known succeeds exactly if the sum is in bounds, and otherwise it
  changes nothing. -/
  store (backend : Backend wire state) (machine : Machine wire state) (src offset : Register)
    (base chosen : UInt64) (value : wire) (tells : machine.processor.Tells offset chosen)
    (read : machine.processor.read src = .ok value) :
    (step backend (.store src base offset)).runFrom machine =
      if base.toNat + chosen.toNat < machine.memory.cells.size then
        (.ok (), { machine with memory := machine.memory.put (base.toNat + chosen.toNat) value })
      else
        (.error (.execution (.memoryOutOfBounds (min (base.toNat + chosen.toNat) (2 ^ 64 - 1))
          machine.memory.cells.size)), machine)
  /-- A load whose offset is known succeeds exactly if the sum is in bounds and the cell there holds
  a wire, and otherwise it changes nothing. -/
  load (backend : Backend wire state) (machine : Machine wire state) (dst offset : Register)
    (base chosen : UInt64) (tells : machine.processor.Tells offset chosen) :
    (step backend (.load dst base offset)).runFrom machine =
      if base.toNat + chosen.toNat < machine.memory.cells.size then
        match machine.memory.get? (base.toNat + chosen.toNat) with
        | some value => (.ok (), { machine with processor := machine.processor.write dst value })
        | none =>
            (.error (.execution (.uninitializedMemory (base.toNat + chosen.toNat))), machine)
      else
        (.error (.execution (.memoryOutOfBounds (min (base.toNat + chosen.toNat) (2 ^ 64 - 1))
          machine.memory.cells.size)), machine)
  /-- What a store puts into a cell changes no other cell, and no cell is added. -/
  put (memory : Memory wire) (address : Nat) (value : wire) (within : address < memory.cells.size) :
    (memory.put address value).cells.size = memory.cells.size ∧
      ∀ other, (memory.put address value).get? other =
        if other = address then some value else memory.get? other
  /-- Calls change the memory by stores only. -/
  calls (before after : Machine wire state) (leads : Leads program before after) :
    ∃ stores, Undergoes program before stores after
  /-- Other cells than those that are stored to do not change. -/
  others (before after : Machine wire state) (stores : List (Nat × wire))
    (undergoes : Undergoes program before stores after) :
    after.memory = before.memory.putAll stores ∧
      ∀ address, (∀ store ∈ stores, store.1 ≠ address) →
        after.memory.get? address = before.memory.get? address
  /-- After a store has succeeded, and no other store to the same sum has been carried out, its wire
  is loaded from the sum, whatever base and offset it is made of. -/
  loadsStored (backend backend' : Backend wire state) (before stored after : Machine wire state)
    (src offset dst offset' : Register) (base chosen base' chosen' : UInt64) (value : wire)
    (checkpoint : Checkpoint) (stores : List (Nat × wire))
    (wellFormed : before.WellFormed program)
    (storesNext : program.instructions[before.processor.counter]? = some (.store src base offset))
    (read : before.processor.read src = .ok value) (tells : before.processor.Tells offset chosen)
    (success : attempt backend (.store src base offset) before = (.ok checkpoint, stored))
    (undergoes : Undergoes program stored stores after)
    (elsewhere : ∀ store ∈ stores, store.1 ≠ base.toNat + chosen.toNat)
    (loadsNext : program.instructions[after.processor.counter]? = some (.load dst base' offset'))
    (tells' : after.processor.Tells offset' chosen')
    (same : base'.toNat + chosen'.toNat = base.toNat + chosen.toNat) :
    ∃ loaded, attempt backend' (.load dst base' offset') after = (.ok .proceed, loaded) ∧
      loaded.processor.read dst = .ok value ∧ loaded.memory = after.memory
  /-- Nothing is loaded from a sum to which nothing has been stored since the start. -/
  loadsNothing (backend : Backend wire state) (initial : state) (machine : Machine wire state)
    (dst offset : Register) (base chosen : UInt64) (stores : List (Nat × wire))
    (undergoes : Undergoes program (start program initial) stores machine)
    (elsewhere : ∀ store ∈ stores, store.1 ≠ base.toNat + chosen.toNat)
    (tells : machine.processor.Tells offset chosen)
    (within : base.toNat + chosen.toNat < program.memorySize.toNat) :
    attempt backend (.load dst base offset) machine =
      (.error (.execution (.uninitializedMemory (base.toNat + chosen.toNat))),
        { machine with processor := machine.processor.advance })

/-- In every program a store and a load use the cell at the true sum. They fail where there is none,
and a load of a cell that holds nothing fails too. So a load gives what was stored to its sum last,
however the sum is split, and fails if nothing was. -/
theorem memory_is_indexed_by_sums (wire state : Type) (program : Program) :
    IndexedBySums wire state program where
  store backend machine _ _ base _ _ tells read := runFrom_store backend machine read tells base
  load backend machine dst _ base _ tells := runFrom_load backend machine tells dst base
  put memory _ value within := ⟨memory.size_put value, memory.get?_put value within⟩
  calls _ _ leads := leads.undergoes
  others before _ stores undergoes := by
    rw [undergoes.memory]
    exact ⟨rfl, fun address => before.memory.get?_putAll stores⟩
  loadsStored backend backend' _ _ after _ _ dst _ _ _ _ _ _ _ _ wellFormed storesNext read tells
      success undergoes elsewhere loadsNext tells' same := by
    obtain ⟨within, held⟩ := undergoes.get?_of_stored read tells success elsewhere
    have reached : after.WellFormed program := by
      have attempted := (wellFormed.attempt backend storesNext).2
      rw [success] at attempted
      exact undergoes.wellFormed attempted
    have dstExists : dst.toNat < after.processor.secrets.size := by
      rw [reached.secrets]
      exact program.lt_secretRegisters (Array.mem_of_getElem? loadsNext)
        (List.mem_singleton_self dst)
    exact ⟨_, attempt_load_of_held tells' reached.lowered (same ▸ within) (same ▸ held) dst,
      Processor.read_write dstExists, rfl⟩
  loadsNothing _ _ machine dst _ base chosen _ undergoes elsewhere tells within := by
    have size : machine.memory.cells.size = program.memorySize.toNat := by
      rw [undergoes.memory, Memory.size_putAll]
      exact Array.size_replicate
    have empty : machine.memory.get? (base.toNat + chosen.toNat) = none := by
      rw [undergoes.memory, Memory.get?_putAll _ _ elsewhere]
      exact Memory.get?_empty _
    exact attempt_load_of_empty tells (size ▸ within) empty dst

end Machine

/-- A bit of the garbler is stored to a cell that is chosen by its own value, its negation is stored
elsewhere, and the bit is loaded back through another sum. -/
def Program.splitSums : Program where
  instructions := #[.constant 1 2, .constant 2 3, .garblerInput 0, .not 1 0, .reveal 0 [0],
    .store 0 2 0, .store 1 0 1, .load 2 0 2]
  memorySize := 4
  faultless := by decide

namespace Machine

/-- The machine at the start. -/
def atSplitSums : Machine Bool Plain :=
  start .splitSums { garblerInputs := [true], evaluatorInputs := [] }

/-- The machine before the first store, when the bit has been opened. -/
def beforeStore : Machine Bool Plain :=
  (atSplitSums.callAll (Plain.backend true) .splitSums [.execute 5, .takeOpenings]).2

/-- The bit is stored to cell 2 + 1 and loaded from cell 0 + 3, nothing can be loaded from cell
0 + 2 before the stores, and a sum that does not fit in 64 bits is out of bounds. -/
theorem split_sums_share_cell :
    let stored := (attempt (Plain.backend true) (.store 0 2 0) beforeStore).2
    let after := (attempt (Plain.backend true) (.store 1 0 1) stored).2
    let first := (attempt (Plain.backend true) (.constant 1 2) atSplitSums).2
    (∃ loaded, attempt (Plain.backend true) (.load 2 0 2) after = (.ok .proceed, loaded) ∧
        loaded.processor.read 2 = .ok true ∧ loaded.memory = after.memory) ∧
      attempt (Plain.backend true) (.load 2 0 1) first =
        (.error (.execution (.uninitializedMemory 2)),
          { first with processor := first.processor.advance }) ∧
      (step (Plain.backend true) (.store 0 0xFFFFFFFFFFFFFFFF 0)).runFrom beforeStore =
        (.error (.execution (.memoryOutOfBounds (2 ^ 64 - 1) 4)), beforeStore) := by
  intro stored after first
  have read : beforeStore.processor.read 0 = .ok true := rfl
  have tells : beforeStore.processor.Tells 0 1 := .opened rfl (by decide) rfl
  have leads : Leads .splitSums atSplitSums beforeStore := Leads.refl.callAll _ _
  have wellFormed : beforeStore.WellFormed .splitSums := leads.wellFormed (.start _ _)
  have between : Undergoes .splitSums stored [(2, false)] after := by
    have next : Program.splitSums.instructions[stored.processor.counter]? =
        some (.store 1 0 1) := rfl
    exact Undergoes.refl.attempt (Plain.backend true) next
  have begins : Undergoes .splitSums atSplitSums [] first := by
    have next : Program.splitSums.instructions[atSplitSums.processor.counter]? =
        some (.constant 1 2) := rfl
    exact Undergoes.refl.attempt (Plain.backend true) next
  have theory := memory_is_indexed_by_sums Bool Plain .splitSums
  refine ⟨?_, ?_, ?_⟩
  · exact theory.loadsStored (Plain.backend true) (Plain.backend true) beforeStore stored after 0 0 2
      2 2 1 0 3 true .proceed [(2, false)] wellFormed rfl read tells (Prod.ext rfl rfl) between
      (by decide) rfl (.constant rfl) (by decide)
  · exact theory.loadsNothing (Plain.backend true) _ first 2 1 0 2 [] begins nofun (.constant rfl)
      (by decide)
  · exact theory.store (Plain.backend true) beforeStore 0 0 0xFFFFFFFFFFFFFFFF 1 true tells read

end Machine

end Garbling
