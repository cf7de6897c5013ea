import Garbling.Error

/-!
# Memory

An array of wires that is addressed by the sum of a base and an offset. The sum is taken
without wrapping around, so an address beyond 64 bits is out of bounds like any other.
-/

namespace Garbling

/-- The cells of a memory; a cell holds nothing until it is stored to. -/
structure Memory (wire : Type) where
  cells : Array (Option wire)

namespace Memory

variable {wire : Type}

/-- A memory of the given size that holds nothing. -/
def empty (size : Nat) : Memory wire := ⟨Array.replicate size none⟩

/-- What a cell holds. -/
def get? (memory : Memory wire) (address : Nat) : Option wire :=
  memory.cells[address]?.join

/-- The address that a base and an offset give, if it is in bounds. -/
def address (memory : Memory wire) (base offset : UInt64) : Except ExecutionError Nat :=
  let address := base.toNat + offset.toNat
  if address < memory.cells.size then .ok address
  else .error (.memoryOutOfBounds (min address (UInt64.size - 1)) memory.cells.size)

/-- Stores a wire. -/
def store (memory : Memory wire) (base offset : UInt64) (value : wire) :
    Except ExecutionError (Memory wire) := do
  let address ← memory.address base offset
  return ⟨memory.cells.setIfInBounds address (some value)⟩

/-- Loads a wire. -/
def load (memory : Memory wire) (base offset : UInt64) : Except ExecutionError wire := do
  let address ← memory.address base offset
  match memory.get? address with
  | some value => return value
  | none => throw (.uninitializedMemory address)

end Memory

end Garbling
