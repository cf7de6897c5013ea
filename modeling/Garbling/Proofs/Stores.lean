import Mathlib
import Garbling.Proofs.RoundTrip
import Garbling.Replay.Batches

/-!
# Stores keep what they are given

Whatever its storage is, a store holds a list of items: adding one puts it at the end, and taking
one out takes it from the beginning. So a stored run gives back its batches in the order in which
they were stored, and with them the labels of those that have inputs.
-/

namespace Garbling

variable {item : Type} {format : Format item} {items : List item} {value : item}

/-- All items can be read back after they have been written. -/
def Format.AllExact (format : Format item) (items : List item) : Prop :=
  ∀ value ∈ items, format.ExactAt value

theorem Format.AllExact.append (first : format.AllExact items) (last : format.ExactAt value) :
    format.AllExact (items ++ [value]) := by
  intro other member
  rcases List.mem_append.mp member with found | found
  · exact first other found
  · obtain rfl := List.mem_singleton.mp found
    exact last

theorem Format.AllExact.tail (all : format.AllExact (value :: items)) : format.AllExact items :=
  fun other member => all other (.tail _ member)

/-- The items on a shelf. What a file holds can be read back. -/
def Shelf.Holds (format : Format item) : Shelf item → List item → Prop
  | .memory held, items => held = items
  | .writing records, items =>
      records = (items.map format.encode).reverse ∧ format.AllExact items
  | .reading rest, items => rest = items.flatMap format.encode ∧ format.AllExact items

namespace Store

variable {store after : Store item}

/-- The items in a store, and how many they are. -/
structure Holds (format : Format item) (store : Store item) (items : List item) : Prop where
  shelf : store.shelf.Holds format items
  count : store.pushed = store.popped + items.length

/-- The store can still be filled. -/
def Fillable (store : Store item) : Prop :=
  store.popped = 0 ∧ ∀ rest, store.shelf ≠ .reading rest

theorem holds_empty (storage : Storage) : Holds format (empty storage) [] := by
  cases storage with
  | memory => exact ⟨rfl, rfl⟩
  | file => exact ⟨⟨rfl, fun _ none => absurd none List.not_mem_nil⟩, rfl⟩

theorem fillable_empty (storage : Storage) : (empty storage : Store item).Fillable := by
  cases storage with
  | memory => exact ⟨rfl, fun _ other => by cases other⟩
  | file => exact ⟨rfl, fun _ other => by cases other⟩

/-- What was added comes after what the store held before. -/
theorem Holds.of_push (holds : Holds format store items) (exact : format.ExactAt value)
    (success : store.push format value = .ok after) : Holds format after (items ++ [value]) := by
  obtain ⟨shelf, count⟩ := holds
  have more : store.pushed + 1 = store.popped + (items ++ [value]).length := by
    rw [List.length_append, List.length_singleton, count, Nat.add_assoc]
  unfold push at success
  cases found : store.shelf with
  | memory held =>
      rw [found] at shelf success
      simp only at success
      split at success
      · cases success
      · cases success
        exact ⟨congrArg (· ++ [value]) shelf, more⟩
  | writing records =>
      rw [found] at shelf success
      cases success
      refine ⟨⟨?_, shelf.2.append exact⟩, more⟩
      rw [List.map_append, List.reverse_append, shelf.1]
      rfl
  | reading rest =>
      rw [found] at success
      cases success

/-- A store that has not been read from takes every item. -/
theorem Fillable.push (fillable : store.Fillable) (format : Format item) (value : item) :
    ∃ after, store.push format value = .ok after ∧ after.Fillable := by
  obtain ⟨untouched, writable⟩ := fillable
  unfold Store.push
  cases found : store.shelf with
  | memory held =>
      simp only
      rw [if_neg (by omega)]
      exact ⟨_, rfl, untouched, fun _ other => by cases other⟩
  | writing records => exact ⟨_, rfl, untouched, fun _ other => by cases other⟩
  | reading rest => exact absurd found (writable rest)

/-- The oldest item is taken out first. -/
theorem Holds.pop (holds : Holds format store (value :: items)) :
    ∃ after, store.pop format = (.ok (some value), after) ∧ Holds format after items := by
  obtain ⟨shelf, count⟩ := holds
  have more : store.popped ≠ store.pushed := by
    rw [count, List.length_cons]
    omega
  have fewer : store.pushed = store.popped + 1 + items.length := by
    rw [count, List.length_cons]
    omega
  have read {rest : Bytes} (same : rest = (value :: items).flatMap format.encode)
      (exact : format.AllExact (value :: items)) :
      ∃ after, store.readItem format rest = (.ok (some value), after) ∧
        Holds format after items := by
    rw [List.flatMap_cons] at same
    rw [readItem, same, exact value (.head _)]
    exact ⟨_, rfl, ⟨rfl, exact.tail⟩, fewer⟩
  unfold Store.pop
  rw [if_neg more]
  cases found : store.shelf with
  | memory held =>
      rw [found] at shelf
      cases shelf
      exact ⟨_, rfl, rfl, fewer⟩
  | writing records =>
      rw [found] at shelf
      refine read ?_ shelf.2
      rw [shelf.1, List.reverse_reverse, List.flatMap_def]
  | reading rest =>
      rw [found] at shelf
      exact read shelf.1 shelf.2

/-- An empty store stays as it is. -/
theorem Holds.pop_nil (holds : Holds format store []) : store.pop format = (.ok none, store) := by
  have count : store.popped = store.pushed := holds.count.symm
  rw [Store.pop, if_pos count]

theorem Holds.remaining (holds : Holds format store items) : store.remaining = items.length := by
  rw [Store.remaining, holds.count, Nat.add_sub_cancel_left]

end Store

/-- The number of inputs of a batch, if it has any. -/
def BatchPair.inputCount (batch : BatchPair) : List UInt64 :=
  if 0 < batch.gates.evaluatorInputs then [batch.gates.evaluatorInputs] else []

namespace StoredRun

variable {run after : StoredRun} {batch : BatchPair} {batches : List BatchPair}
  {labels : List (List Label)}

/-- The batches in a stored run, and the labels for them. -/
structure Holds (run : StoredRun) (batches : List BatchPair) (labels : List (List Label)) :
    Prop where
  gates : run.gates.Holds Layout.compact.gateBatch (batches.map BatchPair.gates)
  masks : run.masks.Holds Layout.compact.maskBatch (batches.map BatchPair.masks)
  labels : run.inputLabels = labels

theorem Holds.empty (storage : Storage) : (StoredRun.empty storage).Holds [] [] :=
  ⟨Store.holds_empty storage, Store.holds_empty storage, rfl⟩

/-- Counting the inputs of a batch adds its number of inputs. -/
theorem countInputs_eq (run : StoredRun) (batch : BatchPair) :
    (if 0 < batch.gates.evaluatorInputs then
      { run with inputCounts := run.inputCounts ++ [batch.gates.evaluatorInputs] } else run) =
        { run with inputCounts := run.inputCounts ++ batch.inputCount } := by
  unfold BatchPair.inputCount
  split
  · rfl
  · rw [List.append_nil]

/-- What was added comes after what the run held before, and its inputs are counted. -/
theorem Holds.of_push (holds : run.Holds batches labels) (countable : batch.Countable)
    (success : run.push batch = (.ok (), after)) :
    after.Holds (batches ++ [batch]) labels ∧
      after.inputCounts = run.inputCounts ++ batch.inputCount := by
  simp only [push, countInputs_eq] at success
  cases gatesPushed : run.gates.push Layout.compact.gateBatch batch.gates with
  | error fault =>
      rw [gatesPushed] at success
      cases success
  | ok gates =>
      cases masksPushed : run.masks.push Layout.compact.maskBatch batch.masks with
      | error fault =>
          rw [gatesPushed, masksPushed] at success
          cases success
      | ok masks =>
          rw [gatesPushed, masksPushed] at success
          cases success
          have gatesHeld := holds.gates.of_push
            (Layout.sound_compact.gateBatch countable.gates countable.garblerInputs) gatesPushed
          have masksHeld := holds.masks.of_push
            (Layout.sound_compact.maskBatch countable.masks) masksPushed
          refine ⟨⟨?_, ?_, holds.labels⟩, rfl⟩
          · rw [List.map_append]
            exact gatesHeld
          · rw [List.map_append]
            exact masksHeld

/-- A run that has not been read from takes every batch. -/
theorem push_of_fillable (gatesFillable : run.gates.Fillable) (masksFillable : run.masks.Fillable)
    (batch : BatchPair) :
    ∃ after, run.push batch = (.ok (), after) ∧ after.gates.Fillable ∧ after.masks.Fillable := by
  obtain ⟨gates, gatesPushed, gatesAfter⟩ :=
    gatesFillable.push Layout.compact.gateBatch batch.gates
  obtain ⟨masks, masksPushed, masksAfter⟩ :=
    masksFillable.push Layout.compact.maskBatch batch.masks
  refine ⟨{ run with inputCounts := run.inputCounts ++ batch.inputCount, gates, masks }, ?_,
    gatesAfter, masksAfter⟩
  simp only [push, countInputs_eq, gatesPushed, masksPushed]

/-- The oldest batch is taken out first. -/
theorem Holds.popPair (holds : run.Holds (batch :: batches) labels) :
    ∃ after, run.popPair = (.ok batch, after) ∧ after.Holds batches labels := by
  obtain ⟨gates, gatesPopped, gatesAfter⟩ := holds.gates.pop
  obtain ⟨masks, masksPopped, masksAfter⟩ := holds.masks.pop
  refine ⟨{ run with gates, masks }, ?_, gatesAfter, masksAfter, holds.labels⟩
  simp only [StoredRun.popPair, gatesPopped, masksPopped]

/-- Nothing can be taken out of an empty run. -/
theorem Holds.pop_nil (holds : run.Holds [] labels) (number : UInt64) :
    run.pop number = (.error (.violation .batchExhausted), run) := by
  have gates := holds.gates.pop_nil
  have masks := holds.masks.pop_nil
  simp only [pop, StoredRun.popPair, gates, masks]

/-- A batch that could be taken out is the oldest one. -/
theorem Holds.of_pop {number : UInt64} {labelsFound : List Label}
    (holds : run.Holds batches labels)
    (success : run.pop number = (.ok (batch, labelsFound), after)) :
    ∃ rest labelsLeft, batches = batch :: rest ∧ after.Holds rest labelsLeft := by
  cases batches with
  | nil =>
      rw [holds.pop_nil] at success
      cases success
  | cons oldest rest =>
      obtain ⟨left, popped, held⟩ := holds.popPair
      simp only [pop, popped] at success
      split at success
      · cases success
      · split at success
        · cases success
        · split at success
          · cases success
            exact ⟨rest, labels, rfl, held⟩
          · split at success
            · cases success
            · cases success
              exact ⟨rest, _, rfl, held.gates, held.masks, rfl⟩

theorem Holds.remaining (holds : run.Holds batches labels) : run.remaining = batches.length := by
  rw [StoredRun.remaining, holds.gates.remaining, List.length_map]

end StoredRun

end Garbling
