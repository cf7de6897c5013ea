import Mathlib
import Garbling.Proofs.Stores

/-!
# Refused batches

Once a batch has been taken out of a stored run, none can be added. The batch that is refused gets
into neither store, and what is taken out later does not depend on it. But its number of inputs
was noted before it was refused, and is told with those of the batches that are stored. So the
attempt leaves a trace exactly if the batch has inputs of the evaluator.
-/

namespace Garbling

namespace Store

variable {item : Type} {format : Format item} {value : item} {store after : Store item}
  {fault : StoreError}

/-- The numbers of items that were added and that were taken out go with the shelf. -/
def Counted (store : Store item) : Prop :=
  match store.shelf with
  | .memory items => store.pushed = store.popped + items.length
  | .writing records => store.popped = 0 ∧ store.pushed = records.length
  | .reading _ => store.popped ≤ store.pushed

theorem counted_empty (storage : Storage) : (empty storage : Store item).Counted := by
  cases storage with
  | memory => exact rfl
  | file => exact ⟨rfl, rfl⟩

/-- A store that takes an item could be filled, and still can be. -/
theorem Counted.of_push (counted : store.Counted) (success : store.push format value = .ok after) :
    store.Fillable ∧ after.Fillable ∧ after.Counted ∧ after.pushed = store.pushed + 1 := by
  obtain ⟨shelf, pushed, popped⟩ := store
  cases shelf with
  | memory items =>
      simp only [push] at success
      split at success
      · cases success
      · next untouched =>
          cases success
          have none := Nat.eq_zero_of_not_pos untouched
          have count : pushed = popped + items.length := counted
          refine ⟨⟨none, fun _ other => by cases other⟩, ⟨none, fun _ other => by cases other⟩,
            ?_, rfl⟩
          change pushed + 1 = popped + (items ++ [value]).length
          rw [List.length_append, List.length_singleton, count, Nat.add_assoc]
  | writing records =>
      cases success
      obtain ⟨none, count⟩ : popped = 0 ∧ pushed = records.length := counted
      exact ⟨⟨none, fun _ other => by cases other⟩, ⟨none, fun _ other => by cases other⟩,
        ⟨none, congrArg (· + 1) count⟩, rfl⟩
  | reading rest => cases success

/-- A store refuses an item only if it cannot be filled any more. -/
theorem of_push_error (refused : store.push format value = .error fault) :
    fault = .sealed ∧ ¬store.Fillable := by
  refine ⟨?_, ?_⟩
  · obtain ⟨shelf, pushed, popped⟩ := store
    cases shelf with
    | memory items =>
        simp only [push] at refused
        split at refused
        · cases refused
          rfl
        · cases refused
    | writing records => cases refused
    | reading rest =>
        cases refused
        rfl
  · intro fillable
    obtain ⟨after, pushed, _⟩ := fillable.push format value
    rw [pushed] at refused
    cases refused

/-- Reading an item from a file keeps the count, and no item can be added after it. -/
theorem counted_readItem {rest : Bytes} (more : store.popped < store.pushed) :
    (store.readItem format rest).2.Counted ∧
      (store.readItem format rest).2.pushed = store.pushed ∧
      ¬(store.readItem format rest).2.Fillable := by
  unfold readItem
  split
  · next value left _ => exact ⟨more, rfl, fun fillable => fillable.2 left rfl⟩
  · exact ⟨more.le, rfl, fun fillable => fillable.2 rest rfl⟩

theorem Counted.popped_le (counted : store.Counted) : store.popped ≤ store.pushed := by
  obtain ⟨shelf, pushed, popped⟩ := store
  cases shelf with
  | memory items => exact Nat.le.intro counted.symm
  | writing records =>
      obtain ⟨untouched, _⟩ : popped = 0 ∧ pushed = records.length := counted
      exact untouched ▸ Nat.zero_le pushed
  | reading rest => exact counted

theorem pop_of_empty (empty : store.popped = store.pushed) (format : Format item) :
    store.pop format = (.ok none, store) :=
  if_pos empty

/-- Nothing is taken out of an empty store. Once an item has been taken out, or could not be read,
no item can be added. -/
theorem Counted.pop (counted : store.Counted) (format : Format item) :
    (store.pop format).2.Counted ∧ (store.pop format).2.pushed = store.pushed ∧
      (store.popped = store.pushed ∧ store.pop format = (.ok none, store) ∨
        ¬(store.pop format).2.Fillable) := by
  by_cases empty : store.popped = store.pushed
  · rw [pop_of_empty empty]
    exact ⟨counted, rfl, .inl ⟨empty, rfl⟩⟩
  · have more := lt_of_le_of_ne counted.popped_le empty
    cases found : store.shelf with
    | memory items =>
        cases items with
        | nil =>
            rw [Counted, found] at counted
            exact absurd counted.symm empty
        | cons value items =>
            rw [Counted, found] at counted
            have taken : store.pop format = (.ok (some value),
                { store with shelf := .memory items, popped := store.popped + 1 }) := by
              rw [Store.pop, if_neg empty, found]
            rw [taken]
            refine ⟨?_, rfl, .inr fun fillable => absurd fillable.1 (Nat.succ_ne_zero _)⟩
            change store.pushed = store.popped + 1 + items.length
            rw [counted, List.length_cons, Nat.add_right_comm, Nat.add_assoc]
    | writing records =>
        have read : store.pop format = store.readItem format records.reverse.flatten := by
          rw [Store.pop, if_neg empty, found]
        rw [read]
        obtain ⟨countedAfter, same, filled⟩ := counted_readItem more
        exact ⟨countedAfter, same, .inr filled⟩
    | reading rest =>
        have read : store.pop format = store.readItem format rest := by
          rw [Store.pop, if_neg empty, found]
        rw [read]
        obtain ⟨countedAfter, same, filled⟩ := counted_readItem more
        exact ⟨countedAfter, same, .inr filled⟩

end Store

/-- A batch without inputs has no number of inputs to be told. -/
theorem BatchPair.inputCount_eq_nil_iff {batch : BatchPair} :
    batch.inputCount = [] ↔ batch.gates.evaluatorInputs = 0 := by
  unfold inputCount
  split
  · next positive =>
      exact iff_of_false (List.cons_ne_nil _ _) fun none =>
        absurd positive (none ▸ UInt64.lt_irrefl 0)
  · next none => exact iff_of_true rfl (UInt64.le_zero_iff.mp (UInt64.not_lt.mp none))

namespace StoredRun

variable {run after : StoredRun} {batch : BatchPair} {fault : StoreError}

/-- The two stores have been given the same number of items, and while the first can be filled, the
second can be filled too. -/
structure Paired (run : StoredRun) : Prop where
  gates : run.gates.Counted
  masks : run.masks.Counted
  pushed : run.gates.pushed = run.masks.pushed
  fillable : run.gates.Fillable → run.masks.Fillable

theorem paired_empty (storage : Storage) : (empty storage).Paired where
  gates := Store.counted_empty storage
  masks := Store.counted_empty storage
  pushed := by cases storage <;> rfl
  fillable _ := Store.fillable_empty storage

/-- The same run, in which other numbers of inputs wait to be told. -/
def withCounts (run : StoredRun) (counts : List UInt64) : StoredRun :=
  { run with inputCounts := counts }

theorem Paired.withCounts (paired : run.Paired) (counts : List UInt64) :
    (run.withCounts counts).Paired :=
  ⟨paired.gates, paired.masks, paired.pushed, paired.fillable⟩

/-- A batch that is refused gets into neither store, but its number of inputs has been noted. -/
theorem Paired.of_push_error (paired : run.Paired)
    (refused : run.push batch = (.error fault, after)) :
    fault = .sealed ∧ after = run.withCounts (run.inputCounts ++ batch.inputCount) := by
  simp only [push, countInputs_eq] at refused
  cases gatesPushed : run.gates.push Layout.compact.gateBatch batch.gates with
  | error error =>
      rw [gatesPushed] at refused
      cases refused
      exact ⟨(Store.of_push_error gatesPushed).1, rfl⟩
  | ok gates =>
      -- The second store takes what the first one takes.
      obtain ⟨masks, masksPushed, _⟩ := (paired.fillable (paired.gates.of_push gatesPushed).1).push
        Layout.compact.maskBatch batch.masks
      rw [gatesPushed, masksPushed] at refused
      cases refused

/-- A batch that is taken gets into both stores. -/
theorem Paired.of_push (paired : run.Paired) (success : run.push batch = (.ok (), after)) :
    after.Paired := by
  simp only [push, countInputs_eq] at success
  cases gatesPushed : run.gates.push Layout.compact.gateBatch batch.gates with
  | error error =>
      rw [gatesPushed] at success
      cases success
  | ok gates =>
      cases masksPushed : run.masks.push Layout.compact.maskBatch batch.masks with
      | error error =>
          rw [gatesPushed, masksPushed] at success
          cases success
      | ok masks =>
          rw [gatesPushed, masksPushed] at success
          cases success
          obtain ⟨_, _, gatesCounted, gatesCount⟩ := paired.gates.of_push gatesPushed
          obtain ⟨_, masksFillable, masksCounted, masksCount⟩ := paired.masks.of_push masksPushed
          have count : gates.pushed = masks.pushed := by
            rw [gatesCount, masksCount, paired.pushed]
          exact ⟨gatesCounted, masksCounted, count, fun _ => masksFillable⟩

theorem Paired.push (paired : run.Paired) (batch : BatchPair) : (run.push batch).2.Paired := by
  cases outcome : run.push batch with
  | mk answer after =>
      cases answer with
      | error fault => exact (paired.of_push_error outcome).2 ▸ paired.withCounts _
      | ok => exact paired.of_push outcome

/-- Both stores are read, unless the first one cannot be read. -/
theorem popPair_snd (run : StoredRun) :
    ((∃ fault, (run.gates.pop Layout.compact.gateBatch).1 = .error fault) ∧
      run.popPair.2 = { run with gates := (run.gates.pop Layout.compact.gateBatch).2 }) ∨
    run.popPair.2 =
      { run with
        gates := (run.gates.pop Layout.compact.gateBatch).2
        masks := (run.masks.pop Layout.compact.maskBatch).2 } := by
  cases gatesPopped : run.gates.pop Layout.compact.gateBatch with
  | mk gates gateStore =>
      cases masksPopped : run.masks.pop Layout.compact.maskBatch with
      | mk masks maskStore =>
          simp only [popPair, gatesPopped, masksPopped]
          cases gates with
          | error fault => exact .inl ⟨⟨fault, rfl⟩, rfl⟩
          | ok gates =>
              right
              rcases masks with fault | _ | masks <;> cases gates <;> rfl

/-- If the first store can be filled after it has been read, then it is empty, and so is the
second. -/
theorem Paired.popPair (paired : run.Paired) : run.popPair.2.Paired := by
  obtain ⟨gatesCounted, gatesPushed, gatesEnd⟩ := paired.gates.pop Layout.compact.gateBatch
  obtain ⟨masksCounted, masksPushed, _⟩ := paired.masks.pop Layout.compact.maskBatch
  rcases run.popPair_snd with ⟨⟨fault, unreadable⟩, same⟩ | same
  · rw [same]
    refine ⟨gatesCounted, paired.masks, gatesPushed.trans paired.pushed, fun fillable => ?_⟩
    rcases gatesEnd with ⟨_, none⟩ | filled
    · rw [none] at unreadable
      cases unreadable
    · exact absurd fillable filled
  · rw [same]
    refine ⟨gatesCounted, masksCounted, ?_, fun fillable => ?_⟩
    · exact gatesPushed.trans (paired.pushed.trans masksPushed.symm)
    · rcases gatesEnd with ⟨empty, none⟩ | filled
      · have gatesFillable : run.gates.Fillable := by
          rw [none] at fillable
          exact fillable
        have untouched : run.masks.pushed = 0 := by
          rw [← paired.pushed, ← empty, gatesFillable.1]
        have emptyToo : run.masks.popped = run.masks.pushed :=
          paired.masks.popped_le.antisymm (untouched ▸ Nat.zero_le _)
        rw [Store.pop_of_empty emptyToo]
        exact paired.fillable gatesFillable
      · exact absurd fillable filled

/-- Taking out a batch changes the stores as reading both of them does. -/
theorem pop_snd (run : StoredRun) (number : UInt64) :
    ∃ labels, (run.pop number).2 = { run.popPair.2 with inputLabels := labels } := by
  unfold pop
  rcases run.popPair with ⟨fault | batch, left⟩
  · exact ⟨_, rfl⟩
  · dsimp only
    split
    · exact ⟨_, rfl⟩
    · split
      · exact ⟨_, rfl⟩
      · split
        · exact ⟨_, rfl⟩
        · split
          · exact ⟨_, rfl⟩
          · exact ⟨_, rfl⟩

theorem Paired.pop (paired : run.Paired) (number : UInt64) : (run.pop number).2.Paired := by
  obtain ⟨labels, same⟩ := run.pop_snd number
  rw [same]
  exact ⟨paired.popPair.gates, paired.popPair.masks, paired.popPair.pushed,
    paired.popPair.fillable⟩

/-- What can be asked of a stored run. -/
inductive Call where
  | push (batch : BatchPair)
  | pop (number : UInt64)
  | pushInputLabels (labels : List Label)
  | takeInputCounts

/-- What a stored run answers. -/
inductive Answer where
  | pushed (outcome : Except StoreError Unit)
  | popped (outcome : Except Error (BatchPair × List Label))
  | labelled
  | counts (inputCounts : List UInt64)

/-- The answer to a call, and the run after it. -/
def perform (run : StoredRun) : Call → Answer × StoredRun
  | .push batch => ((run.push batch).map Answer.pushed id)
  | .pop number => ((run.pop number).map Answer.popped id)
  | .pushInputLabels labels => (.labelled, run.pushInputLabels labels)
  | .takeInputCounts => (run.takeInputCounts.map Answer.counts id)

/-- The run after some calls. -/
def performAll (run : StoredRun) (calls : List Call) : StoredRun :=
  calls.foldl (fun run call => (run.perform call).2) run

/-- What is seen of the run in the course of some calls: the answer to each one, and the number of
batches that are left after it. -/
def observe (run : StoredRun) : List Call → List (Answer × Nat)
  | [] => []
  | call :: calls =>
      let (answer, run) := run.perform call
      (answer, run.remaining) :: run.observe calls

theorem Paired.perform (paired : run.Paired) (call : Call) : (run.perform call).2.Paired := by
  cases call with
  | push batch => exact paired.push batch
  | pop number => exact paired.pop number
  | pushInputLabels labels => exact ⟨paired.gates, paired.masks, paired.pushed, paired.fillable⟩
  | takeInputCounts => exact paired.withCounts []

theorem Paired.performAll (paired : run.Paired) (calls : List Call) :
    (run.performAll calls).Paired := by
  induction calls generalizing run with
  | nil => exact paired
  | cons call calls inductionHypothesis => exact inductionHypothesis (paired.perform call)

section

variable (run) (counts : List UInt64)

/-- A batch is taken or refused whatever numbers of inputs wait to be told. -/
theorem push_withCounts (batch : BatchPair) :
    (run.withCounts counts).push batch =
      ((run.push batch).1, (run.push batch).2.withCounts (counts ++ batch.inputCount)) := by
  simp only [push, countInputs_eq]
  simp only [withCounts]
  cases run.gates.push Layout.compact.gateBatch batch.gates with
  | error fault => rfl
  | ok gates => cases run.masks.push Layout.compact.maskBatch batch.masks <;> rfl

theorem popPair_withCounts :
    (run.withCounts counts).popPair = (run.popPair.1, run.popPair.2.withCounts counts) := by
  cases gatesPopped : run.gates.pop Layout.compact.gateBatch with
  | mk gates gateStore =>
      cases masksPopped : run.masks.pop Layout.compact.maskBatch with
      | mk masks maskStore =>
          simp only [popPair, withCounts, gatesPopped, masksPopped]
          cases gates with
          | error fault => rfl
          | ok gates => rcases masks with fault | _ | masks <;> cases gates <;> rfl

/-- What is taken out does not depend on the numbers of inputs that wait to be told. -/
theorem pop_withCounts (number : UInt64) :
    (run.withCounts counts).pop number =
      ((run.pop number).1, (run.pop number).2.withCounts counts) := by
  simp only [pop, popPair_withCounts]
  rcases run.popPair with ⟨fault | batch, left⟩
  · rfl
  · dsimp only
    split
    · rfl
    · split
      · rfl
      · split
        · rfl
        · simp only [withCounts]
          split <;> rfl

/-- The answer without the numbers of inputs. -/
def Answer.withoutCounts : Answer → Answer
  | .counts _ => .counts []
  | answer => answer

/-- The numbers of inputs that wait to be told have no effect on anything but what is told of
them. -/
theorem perform_withCounts (call : Call) :
    ∃ left, ((run.withCounts counts).perform call).2 = (run.perform call).2.withCounts left ∧
      ((run.withCounts counts).perform call).1.withoutCounts =
        (run.perform call).1.withoutCounts := by
  cases call with
  | push batch =>
      simp only [perform, push_withCounts]
      exact ⟨_, rfl, rfl⟩
  | pop number =>
      simp only [perform, pop_withCounts]
      exact ⟨_, rfl, rfl⟩
  | pushInputLabels labels => exact ⟨counts, rfl, rfl⟩
  | takeInputCounts => exact ⟨[], rfl, rfl⟩

theorem observe_withCounts (calls : List Call) :
    ((run.withCounts counts).observe calls).map (Prod.map Answer.withoutCounts id) =
      (run.observe calls).map (Prod.map Answer.withoutCounts id) := by
  induction calls generalizing run counts with
  | nil => rfl
  | cons call calls inductionHypothesis =>
      obtain ⟨left, same, answered⟩ := run.perform_withCounts counts call
      simp only [observe, List.map_cons, Prod.map_apply, same, answered, inductionHypothesis]
      rfl

end

/-- A batch that is refused gets into neither store, so that all later answers and the number of
batches left are the same as without the attempt, apart from the numbers of inputs. The number of
inputs of the refused batch is told with the others: the attempt leaves no trace exactly if the
batch has no inputs. -/
theorem refused_batch_counted (storage : Storage) (calls : List Call) (batch : BatchPair)
    (fault : StoreError) (after : StoredRun)
    (refused : ((empty storage).performAll calls).push batch = (.error fault, after)) :
    let before := (empty storage).performAll calls
    fault = .sealed ∧
    after = { before with inputCounts := before.inputCounts ++ batch.inputCount } ∧
    (∀ later, (after.observe later).map (Prod.map Answer.withoutCounts id) =
      (before.observe later).map (Prod.map Answer.withoutCounts id)) ∧
    ((∀ later, after.observe later = before.observe later) ↔ batch.gates.evaluatorInputs = 0) := by
  intro before
  obtain ⟨rfl, rfl⟩ := ((paired_empty storage).performAll calls).of_push_error refused
  refine ⟨rfl, rfl, fun later => before.observe_withCounts _ later, ?_⟩
  constructor
  · intro same
    have told : Answer.counts (before.inputCounts ++ batch.inputCount) =
        .counts before.inputCounts :=
      congrArg Prod.fst (List.cons.inj (same [.takeInputCounts])).1
    exact BatchPair.inputCount_eq_nil_iff.mp (List.append_right_eq_self.mp (Answer.counts.inj told))
  · intro none later
    rw [BatchPair.inputCount_eq_nil_iff.mpr none, List.append_nil]
    rfl

/-- A batch without gates and masks, with the given number and number of inputs. -/
def bare (number evaluatorInputs : UInt64) : BatchPair :=
  ⟨⟨number, 0, [], [], evaluatorInputs⟩, ⟨number, []⟩⟩

/-- After a batch of one input has been taken out of a file, a batch of two inputs is refused, and
its number of inputs is told with the one of the batch that was stored. -/
theorem refused_batch_counted_in_file :
    let before := (empty .file).performAll [.push (bare 0 1), .pop 0]
    let after := (before.push (bare 1 2)).2
    before.push (bare 1 2) = (.error .sealed, after) ∧
    after = { before with inputCounts := before.inputCounts ++ [2] } ∧
    (∀ later, (after.observe later).map (Prod.map Answer.withoutCounts id) =
      (before.observe later).map (Prod.map Answer.withoutCounts id)) ∧
    ((∀ later, after.observe later = before.observe later) ↔ (2 : UInt64) = 0) := by
  intro before after
  have refused : before.push (bare 1 2) = (.error .sealed, after) := rfl
  obtain ⟨_, noted, same, trace⟩ := refused_batch_counted .file [.push (bare 0 1), .pop 0]
    (bare 1 2) .sealed after refused
  exact ⟨refused, noted, same, trace⟩

/-- A refused batch leaves a trace: after a batch without inputs has been taken out, one with two
inputs is refused, and yet its number of inputs is told. -/
theorem refused_batch_leaves_trace :
    ¬∀ (storage : Storage) (calls : List Call) (batch : BatchPair) (after : StoredRun),
      ((empty storage).performAll calls).push batch = (.error .sealed, after) →
        ∀ later, after.observe later = ((empty storage).performAll calls).observe later := by
  intro forgotten
  have told := forgotten .memory [.push (bare 0 0), .pop 0] (bare 1 2) _ rfl [.takeInputCounts]
  have counts : Answer.counts [2] = .counts [] := congrArg Prod.fst (List.cons.inj told).1
  cases counts

end StoredRun

end Garbling
