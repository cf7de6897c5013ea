import Mathlib
import Garbling.Proofs.RefusedBatches

/-!
# Replays

The labels of a stored run wait in a queue of their own, which has nothing for batches without
inputs. Yet every batch is taken out with the labels that were meant for it, as the stores of the
two halves always have the same number of batches left. A batch that is not in its place is found
out when its turn comes.
-/

namespace Garbling

/-- The halves of the batch have the given number. -/
def BatchPair.At (batch : BatchPair) (place : Nat) : Prop :=
  batch.gates.number.toNat = place ∧ batch.masks.number.toNat = place

/-- The first number of a half that is not the given one. -/
def BatchPair.otherNumber (batch : BatchPair) (number : UInt64) : UInt64 :=
  if batch.gates.number ≠ number then batch.gates.number else batch.masks.number

theorem BatchPair.At.numbers {batch : BatchPair} {place : Nat} (inPlace : batch.At place) :
    batch.gates.number = UInt64.ofNat place ∧ batch.masks.number = UInt64.ofNat place := by
  obtain ⟨gates, masks⟩ := inPlace
  exact ⟨by rw [← gates, UInt64.ofNat_toNat], by rw [← masks, UInt64.ofNat_toNat]⟩

/-- A batch and the labels that are meant for it. -/
structure Parcel where
  batch : BatchPair
  labels : List Label

namespace Parcel

/-- The batch can be written down and read back, and has labels only if it has inputs. -/
structure Proper (parcel : Parcel) : Prop where
  countable : parcel.batch.Countable
  labels : parcel.batch.gates.evaluatorInputs = 0 → parcel.labels = []

/-- The labels of the batch, if it has a number of inputs. -/
def due (parcel : Parcel) : List (List Label) :=
  parcel.batch.inputCount.map fun _ => parcel.labels

end Parcel

namespace StoredRun

variable {run : StoredRun} {batch : BatchPair} {batches : List BatchPair}
  {labels : List (List Label)} {parcel : Parcel} {parcels : List Parcel}

/-- The calls that store some batches, ask for their numbers of inputs, and store the labels for
those that have any. -/
def filling (parcels : List Parcel) : List Call :=
  parcels.map (fun parcel => .push parcel.batch) ++
    .takeInputCounts :: (parcels.flatMap Parcel.due).map .pushInputLabels

/-- The calls that take out as many batches as are wanted, in order from the given place. -/
def popping (place count : Nat) : List Call :=
  (List.range' place count).map fun place => .pop (UInt64.ofNat place)

@[simp] theorem performAll_nil (run : StoredRun) : run.performAll [] = run := rfl

@[simp] theorem performAll_cons (run : StoredRun) (call : Call) (calls : List Call) :
    run.performAll (call :: calls) = (run.perform call).2.performAll calls := rfl

theorem performAll_append (run : StoredRun) (first rest : List Call) :
    run.performAll (first ++ rest) = (run.performAll first).performAll rest :=
  List.foldl_append

theorem observe_append (run : StoredRun) (first rest : List Call) :
    run.observe (first ++ rest) = run.observe first ++ (run.performAll first).observe rest := by
  induction first generalizing run with
  | nil => rfl
  | cons call calls inductionHypothesis =>
      exact congrArg (List.cons _) (inductionHypothesis (run.perform call).2)

/-- Batches that are stored come after those that are there. -/
theorem Holds.observe_push (holds : run.Holds batches labels) (gates : run.gates.Fillable)
    (masks : run.masks.Fillable) (proper : ∀ parcel ∈ parcels, parcel.Proper) :
    let calls : List Call := parcels.map fun parcel => .push parcel.batch
    run.observe calls =
        parcels.mapIdx (fun k _ => (.pushed (.ok ()), batches.length + (k + 1))) ∧
      (run.performAll calls).Holds (batches ++ parcels.map Parcel.batch) labels ∧
      (run.performAll calls).inputCounts =
        run.inputCounts ++ parcels.flatMap fun parcel => parcel.batch.inputCount := by
  induction parcels generalizing run batches with
  | nil => exact ⟨rfl, by simpa using holds, by simp⟩
  | cons parcel parcels inductionHypothesis =>
      intro calls
      obtain ⟨after, pushed, gatesAfter, masksAfter⟩ :=
        push_of_fillable gates masks parcel.batch
      obtain ⟨held, counted⟩ := holds.of_push (proper parcel (.head _)).countable pushed
      obtain ⟨observed, heldAfter, countedAfter⟩ := inductionHypothesis held gatesAfter masksAfter
        fun other found => proper other (.tail _ found)
      have step : run.perform (.push parcel.batch) = (.pushed (.ok ()), after) := by
        simp only [perform, pushed, Prod.map_apply, id_eq]
      refine ⟨?_, ?_, ?_⟩
      · simp only [calls, List.map_cons, observe, step, observed, held.remaining, List.mapIdx_cons,
          List.length_append, List.length_singleton, Nat.zero_add, Nat.add_assoc, Nat.add_comm 1]
      · simpa [calls, step] using heldAfter
      · simpa [calls, step, counted] using countedAfter

/-- Labels that are stored come after those that are there. -/
theorem Holds.observe_pushInputLabels (holds : run.Holds batches labels)
    (more : List (List Label)) :
    run.observe (more.map .pushInputLabels) = more.map (fun _ => (.labelled, batches.length)) ∧
      (run.performAll (more.map .pushInputLabels)).Holds batches (labels ++ more) := by
  induction more generalizing run labels with
  | nil => exact ⟨rfl, by simpa using holds⟩
  | cons first more inductionHypothesis =>
      have held : (run.pushInputLabels first).Holds batches (labels ++ [first]) :=
        ⟨holds.gates, holds.masks, congrArg (· ++ [first]) holds.labels⟩
      obtain ⟨observed, heldAfter⟩ := inductionHypothesis held
      refine ⟨?_, ?_⟩
      · simp only [List.map_cons, observe, perform, observed, held.remaining]
      · simpa [perform] using heldAfter

/-- A run that is filled holds all batches, and the labels for them. -/
theorem observe_filling (storage : Storage) (proper : ∀ parcel ∈ parcels, parcel.Proper) :
    (empty storage).observe (filling parcels) =
        parcels.mapIdx (fun k _ => (.pushed (.ok ()), k + 1)) ++
          (.counts (parcels.flatMap fun parcel => parcel.batch.inputCount), parcels.length) ::
            (parcels.flatMap Parcel.due).map (fun _ => (.labelled, parcels.length)) ∧
      ((empty storage).performAll (filling parcels)).Holds (parcels.map Parcel.batch)
        (parcels.flatMap Parcel.due) := by
  obtain ⟨observed, held, counted⟩ := (Holds.empty storage).observe_push
    (Store.fillable_empty storage) (Store.fillable_empty storage) proper
  rw [List.nil_append] at held
  generalize stored : (empty storage).performAll (parcels.map fun parcel => .push parcel.batch) =
    run at held counted
  have asked : run.takeInputCounts.2.Holds (parcels.map Parcel.batch) [] :=
    ⟨held.gates, held.masks, held.labels⟩
  obtain ⟨labelled, heldAfter⟩ := asked.observe_pushInputLabels (parcels.flatMap Parcel.due)
  rw [filling, observe_append, performAll_append, observed, stored]
  refine ⟨?_, heldAfter⟩
  have told : run.takeInputCounts.1 = parcels.flatMap fun parcel => parcel.batch.inputCount :=
    counted
  have left : run.takeInputCounts.2.remaining = parcels.length := by
    rw [asked.remaining, List.length_map]
  have step : run.perform .takeInputCounts =
      (.counts (parcels.flatMap fun parcel => parcel.batch.inputCount), run.takeInputCounts.2) :=
    congrArg (fun counts => (Answer.counts counts, run.takeInputCounts.2)) told
  simp only [observe, step, left, labelled, List.length_map, List.length_nil, Nat.zero_add]

/-- A batch that is in its place is taken out with the labels that are due to it. -/
theorem Holds.pop_in_place (holds : run.Holds (parcel.batch :: batches) (parcel.due ++ labels))
    (proper : parcel.Proper) {number : UInt64} (gates : parcel.batch.gates.number = number)
    (masks : parcel.batch.masks.number = number) :
    ∃ after, run.pop number = (.ok (parcel.batch, parcel.labels), after) ∧
      after.Holds batches labels := by
  obtain ⟨left, popped, held⟩ := holds.popPair
  simp only [pop, popped, gates, masks, ne_eq, not_true, if_false]
  by_cases none : parcel.batch.gates.evaluatorInputs = 0
  · have nothing : parcel.due = [] := by
      rw [Parcel.due, BatchPair.inputCount_eq_nil_iff.mpr none, List.map_nil]
    rw [nothing] at held
    rw [if_pos none, proper.labels none]
    exact ⟨left, rfl, held⟩
  · have own : parcel.due = [parcel.labels] := by
      rw [Parcel.due, BatchPair.inputCount, if_pos (UInt64.pos_iff_ne_zero.mpr none),
        List.map_singleton]
    rw [own, List.singleton_append] at held
    rw [if_neg none, held.labels]
    exact ⟨_, rfl, held.gates, held.masks, rfl⟩

/-- A batch that is not in its place is found out, and is gone. -/
theorem Holds.pop_out_of_place (holds : run.Holds (batch :: batches) labels) {number : UInt64}
    (other : ¬(batch.gates.number = number ∧ batch.masks.number = number)) :
    ∃ after, run.pop number =
        (.error (.violation (.outOfOrderBatch number (batch.otherNumber number))), after) ∧
      after.Holds batches labels := by
  obtain ⟨left, popped, held⟩ := holds.popPair
  simp only [pop, popped, BatchPair.otherNumber]
  by_cases gates : batch.gates.number = number
  · have masks : batch.masks.number ≠ number := fun masks => other ⟨gates, masks⟩
    simp only [gates, masks, ne_eq, not_true, not_false_eq_true, if_false, if_true]
    exact ⟨left, rfl, held⟩
  · simp only [gates, ne_eq, not_false_eq_true, if_true]
    exact ⟨left, rfl, held⟩

/-- As long as the batches are in their places, each one is taken out with its labels. -/
theorem Holds.observe_popping (place : Nat) {rest : List BatchPair}
    (holds : run.Holds (parcels.map Parcel.batch ++ rest) (parcels.flatMap Parcel.due ++ labels))
    (proper : ∀ parcel ∈ parcels, parcel.Proper)
    (inPlace : ∀ k (inside : k < parcels.length), parcels[k].batch.At (place + k)) :
    run.observe (popping place parcels.length) =
        parcels.mapIdx (fun k parcel =>
          (.popped (.ok (parcel.batch, parcel.labels)), parcels.length + rest.length - (k + 1))) ∧
      (run.performAll (popping place parcels.length)).Holds rest labels := by
  induction parcels generalizing run place with
  | nil => exact ⟨rfl, holds⟩
  | cons parcel parcels inductionHypothesis =>
      have first : parcel.batch.At place := inPlace 0 (Nat.succ_pos _)
      rw [List.flatMap_cons, List.append_assoc, List.map_cons, List.cons_append] at holds
      obtain ⟨after, popped, held⟩ :=
        holds.pop_in_place (proper parcel (.head _)) first.numbers.1 first.numbers.2
      have others : ∀ k (inside : k < parcels.length), parcels[k].batch.At (place + 1 + k) := by
        intro k inside
        rw [Nat.add_right_comm]
        exact inPlace (k + 1) (Nat.succ_lt_succ inside)
      obtain ⟨observed, heldAfter⟩ :=
        inductionHypothesis (place + 1) held (fun other found => proper other (.tail _ found)) others
      have step : run.perform (.pop (UInt64.ofNat place)) =
          (.popped (.ok (parcel.batch, parcel.labels)), after) := by
        simp only [perform, popped, Prod.map_apply, id_eq]
      have calls : popping place (parcel :: parcels).length =
          .pop (UInt64.ofNat place) :: popping (place + 1) parcels.length := rfl
      rw [calls]
      refine ⟨?_, ?_⟩
      · have size (k : Nat) : parcels.length + 1 + rest.length - (k + 1 + 1) =
            parcels.length + rest.length - (k + 1) := by omega
        have head : parcels.length + 1 + rest.length - 1 = parcels.length + rest.length := by omega
        simp only [observe, step, observed, held.remaining, List.mapIdx_cons, List.length_append,
          List.length_map, List.length_cons, size, Nat.zero_add, head]
      · rwa [performAll_cons, step]

/-- After the batches that are in their places, the first one that is not is found out. -/
theorem Holds.observe_popping_misplaced {rest : List BatchPair}
    (holds : run.Holds (parcels.map Parcel.batch ++ batch :: rest)
      (parcels.flatMap Parcel.due ++ labels))
    (proper : ∀ parcel ∈ parcels, parcel.Proper)
    (inPlace : ∀ k (inside : k < parcels.length), parcels[k].batch.At k) {place : UInt64}
    (next : place.toNat = parcels.length) (misplaced : ¬batch.At place.toNat) :
    run.observe (popping 0 (place.toNat + 1)) =
      parcels.mapIdx (fun k parcel =>
        (.popped (.ok (parcel.batch, parcel.labels)),
          parcels.length + (rest.length + 1) - (k + 1))) ++
      [(.popped (.error (.violation (.outOfOrderBatch place (batch.otherNumber place)))),
        rest.length)] := by
  obtain ⟨observed, held⟩ := Holds.observe_popping 0 holds proper
    (by simpa only [Nat.zero_add] using inPlace)
  have other : ¬(batch.gates.number = place ∧ batch.masks.number = place) := fun same =>
    misplaced ⟨congrArg UInt64.toNat same.1, congrArg UInt64.toNat same.2⟩
  obtain ⟨after, popped, heldAfter⟩ := held.pop_out_of_place other
  have calls : popping 0 (place.toNat + 1) = popping 0 parcels.length ++ [.pop place] := by
    rw [popping, List.range'_concat, List.map_append, next]
    simp [popping, ← next]
  have step : (run.performAll (popping 0 parcels.length)).perform (.pop place) =
      (.popped (.error (.violation (.outOfOrderBatch place (batch.otherNumber place)))), after) := by
    simp only [perform, popped, Prod.map_apply, id_eq]
  rw [calls, observe_append, observed]
  simp only [observe, step, heldAfter.remaining, List.length_cons]

/-- Of all batches that a run holds, the first one that is not in its place is found out. -/
theorem Holds.observe_first_misplaced
    (holds : run.Holds (parcels.map Parcel.batch) (parcels.flatMap Parcel.due))
    (proper : ∀ parcel ∈ parcels, parcel.Proper) {place : UInt64}
    (inside : place.toNat < parcels.length)
    (earlier : ∀ k (earlier : k < place.toNat), parcels[k].batch.At k)
    (misplaced : ¬parcels[place.toNat].batch.At place.toNat) :
    run.observe (popping 0 (place.toNat + 1)) =
      (parcels.take place.toNat).mapIdx (fun k parcel =>
        (.popped (.ok (parcel.batch, parcel.labels)), parcels.length - (k + 1))) ++
      [(.popped (.error (.violation
        (.outOfOrderBatch place (parcels[place.toNat].batch.otherNumber place)))),
        parcels.length - (place.toNat + 1))] := by
  obtain ⟨before, parcel, rest, rfl, count⟩ : ∃ before parcel rest,
      parcels = before ++ parcel :: rest ∧ before.length = place.toNat :=
    ⟨parcels.take place.toNat, parcels[place.toNat], parcels.drop (place.toNat + 1),
      by rw [List.getElem_cons_drop, List.take_append_drop], List.length_take_of_le inside.le⟩
  have own : (before ++ parcel :: rest)[place.toNat] = parcel := by
    simp only [← count, List.getElem_append_right le_rfl, Nat.sub_self, List.getElem_cons_zero]
  have inPlace : ∀ k (inside : k < before.length), before[k].batch.At k := by
    intro k inside
    have inPlace := earlier k (count ▸ inside)
    rwa [List.getElem_append_left inside] at inPlace
  have left : before.length + (rest.length + 1) - (before.length + 1) = rest.length := by omega
  rw [List.map_append, List.map_cons, List.flatMap_append] at holds
  rw [own] at misplaced
  rw [holds.observe_popping_misplaced (fun parcel found => proper parcel (by simp [found]))
    inPlace count.symm misplaced]
  simp [← count, left]

/-- Whatever a stored run is called for, both stores hold halves of the same batches. -/
theorem Holds.perform (holds : run.Holds batches labels) (paired : run.Paired) (call : Call)
    (countable : ∀ batch, call = .push batch → batch.Countable) :
    ∃ batches labels, (run.perform call).2.Holds batches labels := by
  cases call with
  | push batch =>
      cases outcome : run.push batch with
      | mk answer after =>
          simp only [StoredRun.perform, outcome, Prod.map_apply, id_eq]
          cases answer with
          | error fault =>
              rw [(paired.of_push_error outcome).2]
              exact ⟨batches, labels, holds.gates, holds.masks, holds.labels⟩
          | ok => exact ⟨_, _, (holds.of_push (countable batch rfl) outcome).1⟩
  | pop number =>
      rw [StoredRun.perform]
      cases batches with
      | nil =>
          rw [holds.pop_nil]
          exact ⟨[], labels, holds⟩
      | cons batch batches =>
          obtain ⟨after, popped, held⟩ := holds.popPair
          obtain ⟨others, same⟩ := run.pop_snd number
          rw [Prod.map_snd, id_eq, same, popped]
          exact ⟨batches, others, held.gates, held.masks, rfl⟩
  | pushInputLabels more =>
      exact ⟨batches, labels ++ [more], holds.gates, holds.masks,
        congrArg (· ++ [more]) holds.labels⟩
  | takeInputCounts => exact ⟨batches, labels, holds.gates, holds.masks, holds.labels⟩

theorem Holds.performAll (holds : run.Holds batches labels) (paired : run.Paired)
    (calls : List Call) (countable : ∀ batch, .push batch ∈ calls → batch.Countable) :
    ∃ batches labels, (run.performAll calls).Holds batches labels := by
  induction calls generalizing run batches labels with
  | nil => exact ⟨batches, labels, holds⟩
  | cons call calls inductionHypothesis =>
      obtain ⟨_, _, held⟩ :=
        holds.perform paired call fun batch first => countable batch (first ▸ .head _)
      exact inductionHypothesis held (paired.perform call)
        fun batch later => countable batch (.tail _ later)

/-- Batches that are in their places are taken out in order, each one with its own labels, until
none is left. The first one that is not in its place is found out. And whatever calls are made,
both stores have the same number of halves left. -/
theorem replays_own_labels (storage : Storage) (parcels : List Parcel)
    (proper : ∀ parcel ∈ parcels, parcel.Proper) :
    let stored := (empty storage).performAll (filling parcels)
    (empty storage).observe (filling parcels) =
      parcels.mapIdx (fun k _ => (.pushed (.ok ()), k + 1)) ++
        (.counts (parcels.flatMap fun parcel => parcel.batch.inputCount), parcels.length) ::
          (parcels.flatMap Parcel.due).map (fun _ => (.labelled, parcels.length)) ∧
    ((∀ k (inside : k < parcels.length), parcels[k].batch.At k) →
      stored.observe (popping 0 parcels.length) =
        parcels.mapIdx (fun k parcel =>
          (.popped (.ok (parcel.batch, parcel.labels)), parcels.length - (k + 1))) ∧
      ∀ number, ((stored.performAll (popping 0 parcels.length)).pop number).1 =
        .error (.violation .batchExhausted)) ∧
    (∀ (place : UInt64) (inside : place.toNat < parcels.length),
      (∀ k (earlier : k < place.toNat), parcels[k].batch.At k) →
      ¬parcels[place.toNat].batch.At place.toNat →
      stored.observe (popping 0 (place.toNat + 1)) =
        (parcels.take place.toNat).mapIdx (fun k parcel =>
          (.popped (.ok (parcel.batch, parcel.labels)), parcels.length - (k + 1))) ++
        [(.popped (.error (.violation
          (.outOfOrderBatch place (parcels[place.toNat].batch.otherNumber place)))),
          parcels.length - (place.toNat + 1))]) ∧
    ∀ calls : List Call, (∀ batch, .push batch ∈ calls → batch.Countable) →
      ((empty storage).performAll calls).gates.remaining =
        ((empty storage).performAll calls).masks.remaining := by
  intro stored
  obtain ⟨filled, held⟩ := observe_filling storage proper
  refine ⟨filled, fun inPlace => ?_, fun place inside earlier misplaced => ?_,
    fun calls countable => ?_⟩
  · have alone : stored.Holds (parcels.map Parcel.batch ++ []) (parcels.flatMap Parcel.due ++ []) := by
      simpa only [List.append_nil] using held
    obtain ⟨observed, heldAfter⟩ :=
      alone.observe_popping 0 proper (by simpa only [Nat.zero_add] using inPlace)
    exact ⟨observed, fun number => congrArg Prod.fst (heldAfter.pop_nil number)⟩
  · exact held.observe_first_misplaced proper inside earlier misplaced
  · obtain ⟨batches, labels, holds⟩ :=
      (Holds.empty storage).performAll (paired_empty storage) calls countable
    rw [holds.gates.remaining, holds.masks.remaining, List.length_map, List.length_map]

/-- Two batches with inputs and one without between them, in order and with the last two
exchanged. -/
theorem replays_own_labels_of_three :
    let first : Parcel := ⟨bare 0 2, [⟨7⟩, ⟨8⟩]⟩
    let second : Parcel := ⟨bare 1 0, []⟩
    let third : Parcel := ⟨bare 2 1, [⟨9⟩]⟩
    let inOrder := [first, second, third]
    let exchanged := [first, third, second]
    let stored (parcels : List Parcel) := (empty .file).performAll (filling parcels)
    (∀ parcel ∈ inOrder, parcel.Proper) ∧ (∀ parcel ∈ exchanged, parcel.Proper) ∧
    (∀ k (inside : k < 3), inOrder[k].batch.At k) ∧ ¬third.batch.At 1 ∧
    (stored inOrder).observe (popping 0 3) =
      [(.popped (.ok (bare 0 2, [⟨7⟩, ⟨8⟩])), 2), (.popped (.ok (bare 1 0, [])), 1),
        (.popped (.ok (bare 2 1, [⟨9⟩])), 0)] ∧
    (∀ number, (((stored inOrder).performAll (popping 0 3)).pop number).1 =
      .error (.violation .batchExhausted)) ∧
    (stored exchanged).observe (popping 0 2) =
      [(.popped (.ok (bare 0 2, [⟨7⟩, ⟨8⟩])), 2),
        (.popped (.error (.violation (.outOfOrderBatch 1 2))), 1)] ∧
    ((empty .file).performAll [.push (bare 3 1), .pop 3]).gates.remaining =
      ((empty .file).performAll [.push (bare 3 1), .pop 3]).masks.remaining := by
  intro first second third inOrder exchanged stored
  have none : 0 < UInt64.size := by decide
  have countable (number inputs : UInt64) : (bare number inputs).Countable :=
    ⟨⟨none, none⟩, none⟩
  have properFirst : first.Proper := ⟨countable 0 2, by decide⟩
  have properSecond : second.Proper := ⟨countable 1 0, fun _ => rfl⟩
  have properThird : third.Proper := ⟨countable 2 1, by decide⟩
  have proper : ∀ parcel ∈ inOrder, parcel.Proper := by
    simp [inOrder, properFirst, properSecond, properThird]
  have properToo : ∀ parcel ∈ exchanged, parcel.Proper := by
    simp [exchanged, properFirst, properSecond, properThird]
  have inPlace : ∀ k (inside : k < 3), inOrder[k].batch.At k
    | 0, _ => ⟨rfl, rfl⟩
    | 1, _ => ⟨rfl, rfl⟩
    | 2, _ => ⟨rfl, rfl⟩
  have misplaced : ¬third.batch.At 1 := fun wrong => absurd wrong.1 (by decide)
  obtain ⟨_, inTurn, _, alike⟩ := replays_own_labels .file inOrder proper
  obtain ⟨_, _, found, _⟩ := replays_own_labels .file exchanged properToo
  refine ⟨proper, properToo, inPlace, misplaced, (inTurn inPlace).1, (inTurn inPlace).2, ?_, ?_⟩
  · exact found 1 (by decide) (fun | 0, _ => ⟨rfl, rfl⟩) misplaced
  · refine alike _ fun batch pushed => ?_
    obtain rfl : batch = bare 3 1 := by simpa using pushed
    exact countable 3 1

end StoredRun

end Garbling
