import Garbling.Machine.Processor

/-!
# Execution

Both parties execute the same program, each with its own way to treat the gates. A slice is a
bounded number of instructions; it ends early at the end of the program, with an error, or at
an instruction that depends on a value which is not open yet. Such an instruction does nothing
but move the program counter, so going back and executing it again is safe.
-/

namespace Garbling

/-- A computation that may fail and changes its state whether it fails or not. -/
abbrev Action (state result : Type) := ExceptT Error (StateM state) result

/-- How a party treats the gates of a program: what its wires are, and how they are made,
combined and revealed. -/
structure Backend (wire state : Type) where
  /-- The wire of the next input bit of the garbler. -/
  garblerInput : Action state wire
  /-- The wire of the next input bit of the evaluator. -/
  evaluatorInput : Action state wire
  and : wire → wire → Action state wire
  xor : wire → wire → wire
  not : wire → wire
  /-- Reveals a value to both parties, and tells it if this party knows it already. -/
  reveal : List wire → Action state (Option UInt64)
  /-- Reveals a value to the evaluator only. -/
  output : List wire → Action state Unit

/-- All that executing a program changes. -/
structure Machine (wire state : Type) where
  processor : Processor wire
  memory : Memory wire
  backend : state

/-- Why a slice ended. -/
inductive Break where
  /-- The number of instructions of the slice is used up. -/
  | time
  /-- The program is over. -/
  | done
  /-- The last instruction did nothing and has to be executed again, once the values revealed
  so far are open. The program counter is past it already. -/
  | restart
deriving DecidableEq, Repr

namespace Machine

variable {wire state : Type}

/-- The machine at the start of a program. -/
def start (program : Program) (backend : state) : Machine wire state :=
  ⟨program.processor, program.memory, backend⟩

/-- Lets the backend act. -/
def perform {result : Type} (action : Action state result) :
    Action (Machine wire state) result := fun machine =>
  let (result, backend) := action machine.backend
  (result, { machine with backend })

/-- The result of a computation that may fail, but changes nothing. -/
def checked {result : Type} (outcome : Except ExecutionError result) :
    Action (Machine wire state) result :=
  match outcome with
  | .ok result => pure result
  | .error error => throw (.execution error)

/-- The wire in a secret register. -/
def read (register : Register) : Action (Machine wire state) wire := do
  checked ((← get).processor.read register)

/-- The wires in some secret registers. -/
def readAll (registers : List Register) : Action (Machine wire state) (List wire) := do
  checked ((← get).processor.readAll registers)

/-- Puts a wire into a secret register. -/
def write (register : Register) (value : wire) : Action (Machine wire state) Unit :=
  modify fun machine => { machine with processor := machine.processor.write register value }

/-- Puts something into a clear register. -/
def writeClear (register : Register) (clear : Clear) : Action (Machine wire state) Unit :=
  modify fun machine =>
    { machine with processor := machine.processor.writeClear register clear }

/-- The value of a clear register, if it is open; otherwise the processor is tainted. -/
def readClear (register : Register) : Action (Machine wire state) (Option UInt64) := do
  let (value, processor) ← checked ((← get).processor.readClear register)
  modify fun machine => { machine with processor }
  return value

/-- Goes on with another instruction. -/
def jump (target : UInt64) : Action (Machine wire state) Unit :=
  modify fun machine =>
    { machine with processor := { machine.processor with counter := target.toNat } }

/-- Executes one instruction. -/
def step (backend : Backend wire state) : Instruction → Action (Machine wire state) Unit
  | .garblerInput dst => do write dst (← perform backend.garblerInput)
  | .evaluatorInput dst => do write dst (← perform backend.evaluatorInput)
  | .xor dst lhs rhs => do
      let left ← read lhs
      let right ← read rhs
      write dst (backend.xor left right)
  | .and dst lhs rhs => do
      let left ← read lhs
      let right ← read rhs
      write dst (← perform (backend.and left right))
  | .not dst src => do write dst (backend.not (← read src))
  | .reveal dst src => do
      let wires ← readAll src
      let value ← perform (backend.reveal wires)
      writeClear dst (.revealed (← get).processor.log.values.size)
      modify fun machine =>
        { machine with processor.log := machine.processor.log.push value }
  | .output src => do perform (backend.output (← readAll src))
  | .constant dst value => writeClear dst (.constant value)
  | .store src base offset => do
      let value ← read src
      if let some offset ← readClear offset then
        let memory ← checked ((← get).memory.store base offset value)
        modify fun machine => { machine with memory }
  | .load dst base offset => do
      if let some offset ← readClear offset then
        write dst (← checked ((← get).memory.load base offset))
  | .jumpIfZero condition target => do
      if let some value ← readClear condition then
        if value = 0 then jump target
  | .jump target => jump target

/-- Executes one instruction, the program counter being moved past it first, and reads the
taint flag afterwards. -/
def attempt (backend : Backend wire state) (instruction : Instruction) (machine : Machine wire state) :
    Except Error Checkpoint × Machine wire state :=
  match step backend instruction { machine with processor := machine.processor.advance } with
  | (.error error, machine) => (.error error, machine)
  | (.ok (), machine) =>
      let (checkpoint, taint) := machine.processor.taint.checkpoint
      (.ok checkpoint, { machine with processor := { machine.processor with taint } })

/-- Executes at most `budget` instructions. -/
def execute (backend : Backend wire state) (program : Program) :
    (budget : Nat) → Machine wire state → Except Error Break × Machine wire state
  | budget, machine =>
      match program.instructions[machine.processor.counter]?, budget with
      | none, _ => (.ok .done, machine)
      | some _, 0 => (.ok .time, machine)
      | some instruction, budget + 1 =>
          match attempt backend instruction machine with
          | (.error error, machine) => (.error error, machine)
          | (.ok .restartRequested, machine) => (.ok .restart, machine)
          | (.ok .proceed, machine) => execute backend program budget machine

end Machine

end Garbling
