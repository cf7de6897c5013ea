import Mathlib
import Garbling.Machine.Memory

/-!
# Cells of a memory

A memory is an array that is indexed by the sum of a base and an offset, however that sum is split
into the two. A store puts a wire into the cell at its sum and into no other one, and a load gives
what the cell at its sum holds.
-/

namespace Garbling

namespace Memory

variable {wire : Type}

/-- The memory with a wire in one cell. -/
def put (memory : Memory wire) (address : Nat) (value : wire) : Memory wire :=
  ⟨memory.cells.setIfInBounds address (some value)⟩

variable (memory : Memory wire) {address : Nat} (value : wire)

@[simp] theorem size_put : (memory.put address value).cells.size = memory.cells.size :=
  Array.size_setIfInBounds

@[simp] theorem get?_empty (size : Nat) : (empty size : Memory wire).get? address = none := by
  simp only [get?, empty, Array.getElem?_replicate]
  split <;> rfl

/-- Only the cell that is put into changes. -/
theorem get?_put (within : address < memory.cells.size) (other : Nat) :
    (memory.put address value).get? other =
      if other = address then some value else memory.get? other := by
  by_cases same : address = other
  · simp only [get?, put, Array.getElem?_setIfInBounds, same, ↓reduceIte, same ▸ within]
    rfl
  · simp only [get?, put, Array.getElem?_setIfInBounds, same, Ne.symm same, ↓reduceIte]

theorem get?_put_of_ne {other : Nat} (elsewhere : address ≠ other) :
    (memory.put address value).get? other = memory.get? other := by
  simp only [get?, put, Array.getElem?_setIfInBounds, if_neg elsewhere]

/-- A cell that holds a wire exists. -/
theorem lt_size_of_get? {memory : Memory wire} {value : wire}
    (held : memory.get? address = some value) : address < memory.cells.size :=
  (Array.getElem?_eq_some_iff.mp (Option.join_eq_some_iff.mp held)).1

/-- Why there is no address, if the sum of a base and an offset is beyond the last cell. -/
def outOfBounds (address : Nat) : ExecutionError :=
  .memoryOutOfBounds (min address (2 ^ 64 - 1)) memory.cells.size

variable (base offset : UInt64)

theorem store_eq : memory.store base offset value =
    if base.toNat + offset.toNat < memory.cells.size then
      .ok (memory.put (base.toNat + offset.toNat) value)
    else .error (memory.outOfBounds (base.toNat + offset.toNat)) := by
  simp only [store, Memory.address]
  split_ifs <;> rfl

theorem load_eq : memory.load base offset =
    if base.toNat + offset.toNat < memory.cells.size then
      match memory.get? (base.toNat + offset.toNat) with
      | some value => .ok value
      | none => .error (.uninitializedMemory (base.toNat + offset.toNat))
    else .error (memory.outOfBounds (base.toNat + offset.toNat)) := by
  simp only [load, Memory.address]
  split_ifs
  · change (match memory.get? (base.toNat + offset.toNat) with
      | some value => pure value
      | none => throw _) = _
    cases memory.get? (base.toNat + offset.toNat) <;> rfl
  · rfl

variable {memory value base offset} {after : Memory wire}

/-- A store succeeds exactly if its sum is below the size of the memory. -/
theorem store_eq_ok_iff : memory.store base offset value = .ok after ↔
    base.toNat + offset.toNat < memory.cells.size ∧
      after = memory.put (base.toNat + offset.toNat) value := by
  rw [store_eq]
  split_ifs with within
  · simp only [within, Except.ok.injEq, true_and, eq_comm]
  · simp only [within, false_and]

/-- A load succeeds exactly if the cell at its sum holds a wire. -/
theorem load_eq_ok_iff : memory.load base offset = .ok value ↔
    memory.get? (base.toNat + offset.toNat) = some value := by
  rw [load_eq]
  split_ifs with within
  · cases memory.get? (base.toNat + offset.toNat) with
    | none => simp only [reduceCtorEq]
    | some held => simp only [Except.ok.injEq, Option.some.injEq]
  · simp only [false_iff]
    exact fun held => within (lt_size_of_get? held)

end Memory

end Garbling
