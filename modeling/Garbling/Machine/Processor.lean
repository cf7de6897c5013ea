import Garbling.Machine.Memory
import Garbling.Machine.RevealLog
import Garbling.Machine.Taint

/-!
# Processors

The registers, the program counter, the log of revealed values and the taint flag of one
party.
-/

namespace Garbling

/-- What a clear register holds. -/
inductive Clear where
  | unset
  /-- A public constant. -/
  | constant (value : UInt64)
  /-- The value with this index in the log. -/
  | revealed (index : Nat)
deriving DecidableEq, Repr

/-- The state of a processor whose secret registers hold wires of the given type. -/
structure Processor (wire : Type) where
  /-- The index of the next instruction. -/
  counter : Nat := 0
  secrets : Array (Option wire)
  clears : Array Clear
  log : RevealLog := {}
  taint : Taint := {}

namespace Program

variable {wire : Type}

/-- A processor at the start of a program, its registers unset. -/
def processor (program : Program) : Processor wire :=
  { secrets := Array.replicate program.secretRegisters none
    clears := Array.replicate program.clearRegisters .unset }

/-- The memory of a program before its start. -/
def memory (program : Program) : Memory wire := .empty program.memorySize.toNat

end Program

namespace Processor

variable {wire : Type}

/-- Moves the program counter back to the instruction before it. -/
def rewind (processor : Processor wire) : Processor wire :=
  { processor with counter := processor.counter - 1 }

/-- Moves the program counter on to the next instruction. -/
def advance (processor : Processor wire) : Processor wire :=
  { processor with counter := processor.counter + 1 }

/-- Opens all values, and tells those that were not open. -/
def takeOpenings (processor : Processor wire) : List UInt64 × Processor wire :=
  let (openings, log) := processor.log.takeOpenings
  (openings, { processor with log })

/-- Opens all values, given those that were not open. -/
def applyOpenings (processor : Processor wire) (openings : List UInt64) :
    Except Violation (Processor wire) := do
  let log ← processor.log.applyOpenings openings
  return { processor with log }

/-- The wire in a secret register. -/
def read (processor : Processor wire) (register : Register) : Except ExecutionError wire :=
  match processor.secrets[register.toNat]?.join with
  | some value => .ok value
  | none => .error (.uninitializedRegister register)

/-- The wires in some secret registers. -/
def readAll (processor : Processor wire) (registers : List Register) :
    Except ExecutionError (List wire) :=
  registers.mapM processor.read

/-- Puts a wire into a secret register. -/
def write (processor : Processor wire) (register : Register) (value : wire) : Processor wire :=
  { processor with secrets := processor.secrets.setIfInBounds register.toNat (some value) }

/-- Puts something into a clear register. -/
def writeClear (processor : Processor wire) (register : Register) (clear : Clear) :
    Processor wire :=
  { processor with clears := processor.clears.setIfInBounds register.toNat clear }

/-- The value of a clear register that decides an address or a jump. If the value is not open
yet there is none, and the processor is tainted. -/
def readClear (processor : Processor wire) (register : Register) :
    Except ExecutionError (Option UInt64 × Processor wire) :=
  match processor.clears.getD register.toNat .unset with
  | .unset => .error (.uninitializedClear register)
  | .constant value => .ok (some value, processor)
  | .revealed index =>
      if index < processor.log.opened then .ok (processor.log.values[index]?.join, processor)
      else .ok (none, { processor with taint := processor.taint.raise })

end Processor

end Garbling
