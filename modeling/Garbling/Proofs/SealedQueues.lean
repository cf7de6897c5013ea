import Mathlib
import Garbling.Proofs.RefusedBatches

/-!
# Stores are queues with a seal

Whatever its storage is, a store answers all calls as one queue does, to which nothing can be added
once something has been taken out of it. The storages tell in different ways whether something has
been taken out and whether something is left; what comes of it is the same.
-/

namespace Garbling

variable {item : Type}

namespace Store

/-- What can be asked of a store. -/
inductive Call (item : Type) where
  | push (value : item)
  | pop

/-- What a store answers. -/
inductive Answer (item : Type) where
  | pushed (outcome : Except StoreError Unit)
  | popped (outcome : Except StoreError (Option item))

/-- The answer to a call, and the store after it. -/
def perform (format : Format item) (store : Store item) : Call item → Answer item × Store item
  | .push value =>
      match store.push format value with
      | .ok after => (.pushed (.ok ()), after)
      | .error fault => (.pushed (.error fault), store)
  | .pop => (store.pop format).map .popped id

/-- The store after some calls. -/
def performAll (format : Format item) (store : Store item) (calls : List (Call item)) : Store item :=
  calls.foldl (fun store call => (store.perform format call).2) store

/-- What is seen of the store in the course of some calls: the answer to each one, and the number
of items that are left after it. -/
def observe (format : Format item) (store : Store item) :
    List (Call item) → List (Answer item × Nat)
  | [] => []
  | call :: calls =>
      let (answer, after) := store.perform format call
      (answer, after.remaining) :: after.observe format calls

/-- The items that were added in the course of some calls with the given answers. -/
def added (calls : List (Call item)) (answers : List (Answer item)) : List item :=
  (calls.zip answers).filterMap fun
    | (.push value, .pushed (.ok ())) => some value
    | _ => none

/-- The items that were taken out, from the answers. -/
def taken (answers : List (Answer item)) : List item :=
  answers.filterMap fun
    | .popped (.ok value) => value
    | _ => none

end Store

/-- A queue, and what has been taken out of it. -/
structure SealedQueue (item : Type) where
  taken : List item := []
  left : List item := []

namespace SealedQueue

/-- The answer to a call, and the queue after it. -/
def perform (queue : SealedQueue item) : Store.Call item → Store.Answer item × SealedQueue item
  | .push value =>
      if queue.taken.isEmpty then (.pushed (.ok ()), { queue with left := queue.left ++ [value] })
      else (.pushed (.error .sealed), queue)
  | .pop =>
      (.popped (.ok queue.left.head?), ⟨queue.taken ++ queue.left.head?.toList, queue.left.tail⟩)

/-- The queue after some calls. -/
def performAll (queue : SealedQueue item) (calls : List (Store.Call item)) : SealedQueue item :=
  calls.foldl (fun queue call => (queue.perform call).2) queue

/-- The answers to some calls, and the number of items that are left after each of them. -/
def observe (queue : SealedQueue item) : List (Store.Call item) → List (Store.Answer item × Nat)
  | [] => []
  | call :: calls =>
      let (answer, after) := queue.perform call
      (answer, after.left.length) :: after.observe calls

/-- What has been taken out in the end was there before, or was taken out on the way. -/
theorem taken_performAll (queue : SealedQueue item) (calls : List (Store.Call item)) :
    (queue.performAll calls).taken =
      queue.taken ++ Store.taken ((queue.observe calls).map Prod.fst) := by
  induction calls generalizing queue with
  | nil => exact (List.append_nil _).symm
  | cons call calls inductionHypothesis =>
      refine (inductionHypothesis (queue.perform call).2).trans ?_
      cases call with
      | push value =>
          simp only [observe, perform]
          split <;> rfl
      | pop =>
          cases first : queue.left.head? <;>
            simp [observe, perform, Store.taken, first, List.append_assoc]

/-- What has been added in the end was there before, or was added on the way. -/
theorem added_performAll (queue : SealedQueue item) (calls : List (Store.Call item)) :
    (queue.performAll calls).taken ++ (queue.performAll calls).left =
      queue.taken ++ queue.left ++ Store.added calls ((queue.observe calls).map Prod.fst) := by
  induction calls generalizing queue with
  | nil => exact (List.append_nil _).symm
  | cons call calls inductionHypothesis =>
      refine (inductionHypothesis (queue.perform call).2).trans ?_
      cases call with
      | push value =>
          by_cases unsealed : queue.taken.isEmpty
          · simp [observe, perform, Store.added, unsealed, List.append_assoc]
          · simp [observe, perform, Store.added, unsealed]
      | pop => cases first : queue.left <;> simp [observe, perform, Store.added, first]

end SealedQueue

namespace Store

variable {format : Format item} {store : Store item} {queue : SealedQueue item}

/-- The store is the queue in one of its storages. -/
structure Keeps (format : Format item) (store : Store item) (queue : SealedQueue item) : Prop where
  counted : store.Counted
  holds : store.Holds format queue.left
  fillable_iff : store.Fillable ↔ queue.taken = []

theorem keeps_empty (storage : Storage) : (empty storage).Keeps format {} :=
  ⟨counted_empty storage, holds_empty storage, iff_of_true (fillable_empty storage) rfl⟩

theorem Keeps.remaining (keeps : store.Keeps format queue) : store.remaining = queue.left.length :=
  keeps.holds.remaining

/-- The store refuses an item exactly if one has been taken out. -/
theorem Keeps.push_eq_error_iff (keeps : store.Keeps format queue) (value : item)
    {fault : StoreError} :
    store.push format value = .error fault ↔ fault = .sealed ∧ queue.taken ≠ [] := by
  constructor
  · intro refused
    obtain ⟨rfl, closed⟩ := of_push_error refused
    exact ⟨rfl, fun none => closed (keeps.fillable_iff.mpr none)⟩
  · rintro ⟨rfl, some⟩
    cases pushed : store.push format value with
    | error fault => rw [(of_push_error pushed).1]
    | ok after => exact absurd (keeps.fillable_iff.mp (keeps.counted.of_push pushed).1) some

/-- The store answers a call as the queue does, and goes on to be the queue. -/
theorem Keeps.perform (keeps : store.Keeps format queue) (call : Call item)
    (exact : ∀ value, call = .push value → format.ExactAt value) :
    (store.perform format call).1 = (queue.perform call).1 ∧
      (store.perform format call).2.Keeps format (queue.perform call).2 := by
  cases call with
  | push value =>
      by_cases none : queue.taken = []
      · obtain ⟨after, pushed, _⟩ := (keeps.fillable_iff.mpr none).push format value
        obtain ⟨_, fillable, counted, _⟩ := keeps.counted.of_push pushed
        have holds := keeps.holds.of_push (exact value rfl) pushed
        simp only [Store.perform, SealedQueue.perform, pushed, none, List.isEmpty_nil, if_true]
        exact ⟨trivial, counted, holds, iff_of_true fillable rfl⟩
      · have refused := (keeps.push_eq_error_iff value).mpr ⟨rfl, none⟩
        simp only [Store.perform, SealedQueue.perform, refused, List.isEmpty_iff, none, if_false]
        exact ⟨trivial, keeps⟩
  | pop =>
      obtain ⟨counted, _, last⟩ := keeps.counted.pop format
      obtain ⟨taken, left⟩ := queue
      cases left with
      | nil =>
          have empty := keeps.holds.pop_nil
          simp only [Store.perform, SealedQueue.perform, empty]
          refine ⟨rfl, keeps.counted, keeps.holds, ?_⟩
          simpa using keeps.fillable_iff
      | cons value left =>
          obtain ⟨after, popped, holds⟩ := keeps.holds.pop
          rw [popped] at counted last
          simp only [Store.perform, SealedQueue.perform, popped]
          refine ⟨rfl, counted, holds, iff_of_false ?_ (by simp)⟩
          -- Of an empty store nothing would have been taken out.
          rcases last with ⟨_, none⟩ | filled
          · cases none
          · exact filled

theorem Keeps.performAll (keeps : store.Keeps format queue) (calls : List (Call item))
    (exact : ∀ value, .push value ∈ calls → format.ExactAt value) :
    store.observe format calls = queue.observe calls ∧
      (store.performAll format calls).Keeps format (queue.performAll calls) := by
  induction calls generalizing store queue with
  | nil => exact ⟨rfl, keeps⟩
  | cons call calls inductionHypothesis =>
      obtain ⟨same, kept⟩ := keeps.perform call fun value first => exact value (first ▸ .head _)
      obtain ⟨sameLater, keptLater⟩ :=
        inductionHypothesis kept fun value later => exact value (.tail _ later)
      refine ⟨?_, keptLater⟩
      simp only [observe, SealedQueue.observe, same, sameLater, kept.remaining]

/-- After any calls, both storages have given the same answers. The items that were taken out are
the first ones that were added, in order, and the next one is taken out as long as there is one.
Adding is refused exactly if an item has been taken out, and changes nothing then. -/
theorem hands_out_in_order (format : Format item) (calls : List (Call item))
    (exact : ∀ value, .push value ∈ calls → format.ExactAt value) (storage : Storage) :
    let observed := (empty storage).observe format calls
    let store := (empty storage).performAll format calls
    let added := added calls (observed.map Prod.fst)
    let taken := taken (observed.map Prod.fst)
    (∀ other, (empty other).observe format calls = observed) ∧
    taken <+: added ∧
    (store.pop format).1 = .ok added[taken.length]? ∧
    ((store.pop format).1 = .ok none ↔ taken = added) ∧
    (∀ value, store.push format value = .error .sealed ↔ taken ≠ []) ∧
    (∀ value fault, store.push format value = .error fault →
      fault = .sealed ∧ (store.perform format (.push value)).2 = store) ∧
    store.remaining + taken.length = added.length := by
  intro observed store added taken
  have keepsEmpty (storage : Storage) : (empty storage).Keeps format {} := keeps_empty storage
  obtain ⟨same, keeps⟩ := (keepsEmpty storage).performAll calls exact
  have takenEq : (SealedQueue.performAll {} calls).taken = taken := by
    rw [SealedQueue.taken_performAll, ← same]
    rfl
  have addedEq : taken ++ (SealedQueue.performAll {} calls).left = added := by
    rw [← takenEq, SealedQueue.added_performAll, ← same]
    rfl
  have next : (store.pop format).1 = .ok (SealedQueue.performAll {} calls).left.head? :=
    Answer.popped.inj (keeps.perform .pop fun _ other => by cases other).1
  rw [← takenEq] at addedEq ⊢
  generalize SealedQueue.performAll {} calls = queue at *
  rw [← addedEq]
  refine ⟨fun other => ((keepsEmpty other).performAll calls exact).1.trans same.symm,
    List.prefix_append _ _, ?_, ?_, fun value => ?_, fun value fault refused => ?_, ?_⟩
  · rw [next, List.getElem?_append_right le_rfl, Nat.sub_self, List.head?_eq_getElem?]
  · rw [next]
    simp
  · rw [keeps.push_eq_error_iff]
    exact and_iff_right rfl
  · refine ⟨((keeps.push_eq_error_iff value).mp refused).1, ?_⟩
    simp only [perform, refused]
  · rw [keeps.remaining, List.length_append, Nat.add_comm]

/-- Before the first number is written to the file, and after the last one has been read, nothing
can be taken out; only the first of these attempts lets numbers be added. -/
theorem hands_out_numbers_in_order :
    let calls : List (Call UInt64) := [.pop, .push 1, .push 300, .pop, .push 7, .pop, .pop]
    let format := Layout.compact.word64
    let observed := (empty .file).observe format calls
    let store := (empty .file).performAll format calls
    let added := added calls (observed.map Prod.fst)
    let taken := taken (observed.map Prod.fst)
    (∀ value, .push value ∈ calls → format.ExactAt value) ∧
    (∀ other, (empty other).observe format calls = observed) ∧
    taken <+: added ∧
    (store.pop format).1 = .ok added[taken.length]? ∧
    ((store.pop format).1 = .ok none ↔ taken = added) ∧
    (∀ value, store.push format value = .error .sealed ↔ taken ≠ []) ∧
    (∀ value fault, store.push format value = .error fault →
      fault = .sealed ∧ (store.perform format (.push value)).2 = store) ∧
    store.remaining + taken.length = added.length := by
  intro calls format observed store added taken
  have exact : ∀ value, .push value ∈ calls → format.ExactAt value :=
    fun value _ => Layout.sound_compact.word64 value
  exact ⟨exact, hands_out_in_order format calls exact .file⟩

end Store

end Garbling
