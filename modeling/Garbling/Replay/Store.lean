import Garbling.Error
import Garbling.Wire.Format

/-!
# Stores

A store takes items in and gives them back in the same order. It is filled first and emptied
afterwards: once an item has been taken out, none can be added. The items are kept in memory,
or they are written to a file one after the other and read back from its start.
-/

namespace Garbling

/-- Where a store keeps its items. -/
inductive Storage where
  | memory
  | file
deriving DecidableEq, Repr

/-- The storage that settings ask for: a file if they name a directory, which must be usable. -/
def Storage.select (usable : String → Bool) : Option String → Except StoreError Storage
  | none => .ok .memory
  | some directory => if usable directory then .ok .file else .error .unusableDirectory

/-- The items that a store holds. -/
inductive Shelf (item : Type) where
  /-- Items in memory, the oldest first. -/
  | memory (items : List item)
  /-- A file that is being written: its records, the newest first. -/
  | writing (records : List Bytes)
  /-- A file that is being read: what is left of it. -/
  | reading (rest : Bytes)

/-- A store of items. -/
structure Store (item : Type) where
  shelf : Shelf item
  /-- The number of items that were added. -/
  pushed : Nat := 0
  /-- The number of items that were taken out. -/
  popped : Nat := 0

namespace Store

variable {item : Type}

/-- A store without items. -/
def empty : Storage → Store item
  | .memory => ⟨.memory [], 0, 0⟩
  | .file => ⟨.writing [], 0, 0⟩

/-- Adds an item. -/
def push (format : Format item) (store : Store item) (value : item) :
    Except StoreError (Store item) :=
  match store.shelf with
  | .memory items =>
      if 0 < store.popped then .error .sealed
      else .ok { store with shelf := .memory (items ++ [value]), pushed := store.pushed + 1 }
  | .writing records =>
      .ok { store with
        shelf := .writing (format.encode value :: records)
        pushed := store.pushed + 1 }
  | .reading _ => .error .sealed

/-- Reads an item from the rest of a file. -/
def readItem (format : Format item) (store : Store item) (rest : Bytes) :
    Except StoreError (Option item) × Store item :=
  match format.decode rest with
  | .ok (value, rest) =>
      (.ok (some value), { store with shelf := .reading rest, popped := store.popped + 1 })
  | .error error => (.error (.unreadable error), { store with shelf := .reading rest })

/-- Takes out the oldest item, if there is one. -/
def pop (format : Format item) (store : Store item) :
    Except StoreError (Option item) × Store item :=
  if store.popped = store.pushed then (.ok none, store)
  else
    match store.shelf with
    | .memory [] => (.ok none, store)
    | .memory (value :: items) =>
        (.ok (some value), { store with shelf := .memory items, popped := store.popped + 1 })
    | .writing records => store.readItem format records.reverse.flatten
    | .reading rest => store.readItem format rest

/-- The number of items that are left. -/
def remaining (store : Store item) : Nat := store.pushed - store.popped

end Store

end Garbling
