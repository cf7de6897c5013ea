import Mathlib
import Garbling.Batch.Draft
import Garbling.Batch.Reader

/-!
# Contents that are handed over

A batch has four kinds of content, each in an order of its own. However additions to a draft are
mixed and wherever batches are taken out of it, a batch has, of each kind, what was added since the
batch before it. However the reads of a batch are mixed, they find the content of each kind in
order, and in the end the reader knows how much of it has not been read.
-/

namespace Garbling

/-- A piece of the content of a batch. -/
inductive BatchItem where
  | gate (gate : Gate)
  | garblerInput (label : Label)
  | evaluatorInput (label : Label)
  | mask (mask : Mask)

/-- The kinds of content. -/
inductive BatchItem.Kind where
  | gate | garblerInput | evaluatorInput | mask
deriving DecidableEq

namespace BatchItem

/-- All kinds of content. -/
def Kind.all : List Kind := [.gate, .garblerInput, .evaluatorInput, .mask]

theorem Kind.mem_all (kind : Kind) : kind ∈ all := by
  cases kind <;> decide

/-- The kind of a piece of content. -/
def kind : BatchItem → Kind
  | .gate _ => .gate
  | .garblerInput _ => .garblerInput
  | .evaluatorInput _ => .evaluatorInput
  | .mask _ => .mask

/-- The items of the given kind, in order. -/
def ofKind (items : List BatchItem) (kind : Kind) : List BatchItem :=
  items.filter fun item => item.kind = kind

theorem ofKind_cons (item : BatchItem) (items : List BatchItem) (kind : Kind) :
    ofKind (item :: items) kind = ofKind [item] kind ++ ofKind items kind :=
  List.filter_append [item] items

end BatchItem

open BatchItem (Kind ofKind ofKind_cons)

/-- The content of a batch and of the labels that go with it, kind by kind. -/
def BatchPair.contents (batch : BatchPair) (labels : List Label) : Kind → List BatchItem
  | .gate => batch.gates.gates.map .gate
  | .garblerInput => batch.gates.garblerInputs.map .garblerInput
  | .evaluatorInput => labels.map .evaluatorInput
  | .mask => batch.masks.masks.map .mask

namespace Draft

/-- Adds a piece of content. -/
def add (draft : Draft) : BatchItem → Draft
  | .gate gate => draft.addGate gate
  | .garblerInput label => draft.addGarblerInput label
  | .evaluatorInput label => draft.addEvaluatorInput label
  | .mask mask => draft.addMask mask

/-- The content of a draft, kind by kind. -/
def contents (draft : Draft) : Kind → List BatchItem
  | .gate => draft.gates.toList.map .gate
  | .garblerInput => draft.garblerInputs.toList.map .garblerInput
  | .evaluatorInput => draft.evaluatorInputs.toList.map .evaluatorInput
  | .mask => draft.masks.toList.map .mask

/-- What can be done with a draft. -/
inductive Call where
  | add (item : BatchItem)
  | take (number nextGate : UInt64)

namespace Call

/-- Whether a batch is taken out. -/
def isTake : Call → Bool
  | .add _ => false
  | .take _ _ => true

/-- What is added, if anything is. -/
def item? : Call → Option BatchItem
  | .add item => some item
  | .take _ _ => none

/-- The number of the batch, if one is taken out. -/
def number? : Call → Option UInt64
  | .add _ => none
  | .take number _ => some number

/-- The index of the first gate after the batch, if one is taken out. -/
def nextGate? : Call → Option UInt64
  | .add _ => none
  | .take _ nextGate => some nextGate

end Call

/-- The batches that are taken out in the course of some calls, each with the zero labels of the
evaluator's inputs, and the draft after the calls. -/
def perform (draft : Draft) : List Call → List (BatchPair × List Label) × Draft
  | [] => ([], draft)
  | .add item :: calls => (draft.add item).perform calls
  | .take number nextGate :: calls =>
      let (batch, zeroLabels, next) := draft.take number nextGate
      let (others, final) := next.perform calls
      ((batch, zeroLabels) :: others, final)

variable (draft : Draft) (calls : List Call)

theorem contents_empty (kind : Kind) : ({} : Draft).contents kind = [] := by
  cases kind <;> rfl

theorem contents_add (item : BatchItem) (kind : Kind) :
    (draft.add item).contents kind = draft.contents kind ++ ofKind [item] kind := by
  cases item <;> cases kind <;>
    simp [add, addGate, addGarblerInput, addEvaluatorInput, addMask, contents, ofKind,
      BatchItem.kind]

section

variable (number nextGate : UInt64) (kind : Kind)

/-- A batch has the content of the draft from which it is taken out. -/
theorem contents_take :
    (draft.take number nextGate).1.contents (draft.take number nextGate).2.1 kind =
      draft.contents kind := by
  cases kind <;> rfl

/-- A batch leaves nothing in the draft. -/
theorem contents_taken : (draft.take number nextGate).2.2.contents kind = [] := by
  cases kind <;> rfl

end

/-- Batch by batch, and then in the draft that is left, the content of a kind is what was added of
it since the batch before. -/
theorem contents_perform (kind : Kind) :
    (draft.perform calls).1.map (fun entry => entry.1.contents entry.2 kind) ++
        [(draft.perform calls).2.contents kind] =
      ((calls.splitOnP Call.isTake).map fun between =>
        ofKind (between.filterMap Call.item?) kind).modifyHead (draft.contents kind ++ ·) := by
  induction calls generalizing draft with
  | nil => simp [perform, ofKind]
  | cons call calls inductionHypothesis =>
      obtain ⟨first, others, split⟩ :=
        List.exists_cons_of_ne_nil (List.splitOnP_ne_nil Call.isTake calls)
      rw [split] at inductionHypothesis
      rw [List.splitOnP_cons_eq_if_modifyHead, split]
      cases call with
      | add item =>
          refine (inductionHypothesis (draft.add item)).trans ?_
          have items : ((Call.add item :: first).filterMap Call.item?) =
              item :: first.filterMap Call.item? := rfl
          simp [Call.isTake, contents_add, items, ofKind_cons item (first.filterMap Call.item?)]
      | take number nextGate =>
          have later := inductionHypothesis (draft.take number nextGate).2.2
          rw [contents_taken] at later
          simp only [perform, List.map_cons, contents_take, List.cons_append, later]
          simp [Call.isTake, ofKind]

/-- Nothing that was added is lost, and nothing is there twice. -/
theorem flatMap_contents_perform (kind : Kind) :
    (draft.perform calls).1.flatMap (fun entry => entry.1.contents entry.2 kind) ++
        (draft.perform calls).2.contents kind =
      draft.contents kind ++ ofKind (calls.filterMap Call.item?) kind := by
  induction calls generalizing draft with
  | nil => exact (List.append_nil _).symm
  | cons call calls inductionHypothesis =>
      cases call with
      | add item =>
          refine (inductionHypothesis (draft.add item)).trans ?_
          rw [contents_add, List.append_assoc, ← ofKind_cons]
          rfl
      | take number nextGate =>
          have later := inductionHypothesis (draft.take number nextGate).2.2
          rw [contents_taken] at later
          simp only [perform, List.flatMap_cons, contents_take, List.append_assoc, later]
          rfl

/-- Every batch begins with the gate that was announced when the one before it was taken out. -/
theorem firstGates_perform :
    (draft.perform calls).1.map (·.1.gates.firstGate) ++ [(draft.perform calls).2.firstGate] =
      draft.firstGate :: calls.filterMap Call.nextGate? := by
  induction calls generalizing draft with
  | nil => rfl
  | cons call calls inductionHypothesis =>
      cases call with
      | add item =>
          refine (inductionHypothesis (draft.add item)).trans ?_
          cases item <;> rfl
      | take number nextGate =>
          exact congrArg (List.cons draft.firstGate)
            (inductionHypothesis (draft.take number nextGate).2.2)

/-- Both halves of a batch have the number with which it was taken out. -/
theorem numbers_perform :
    (draft.perform calls).1.map (fun entry => (entry.1.gates.number, entry.1.masks.number)) =
      (calls.filterMap Call.number?).map fun number => (number, number) := by
  induction calls generalizing draft with
  | nil => rfl
  | cons call calls inductionHypothesis =>
      cases call with
      | add item => exact inductionHypothesis (draft.add item)
      | take number nextGate =>
          exact congrArg (List.cons (number, number))
            (inductionHypothesis (draft.take number nextGate).2.2)

/-- A batch tells the number of zero labels that are handed over with it. -/
theorem evaluatorInputs_perform :
    (draft.perform calls).1.map (·.1.gates.evaluatorInputs) =
      (draft.perform calls).1.map fun entry => UInt64.ofNat entry.2.length := by
  induction calls generalizing draft with
  | nil => rfl
  | cons call calls inductionHypothesis =>
      cases call with
      | add item => exact inductionHypothesis (draft.add item)
      | take number nextGate =>
          exact congrArg (List.cons (UInt64.ofNat draft.evaluatorInputs.size))
            (inductionHypothesis (draft.take number nextGate).2.2)

end Draft

namespace BatchReader

/-- The content that has not been read, kind by kind. -/
def contents (reader : BatchReader) : Kind → List BatchItem
  | .gate => reader.gates.map .gate
  | .garblerInput => reader.garblerInputs.map .garblerInput
  | .evaluatorInput => reader.evaluatorInputs.map .evaluatorInput
  | .mask => reader.masks.map .mask

/-- The next item of a kind. -/
def next (reader : BatchReader) : Kind → Except Violation (BatchItem × BatchReader)
  | .gate => (reader.nextGate).map (Prod.map .gate id)
  | .garblerInput => (reader.nextGarblerInput).map (Prod.map .garblerInput id)
  | .evaluatorInput => (reader.nextEvaluatorInput).map (Prod.map .evaluatorInput id)
  | .mask => (reader.nextMask).map (Prod.map .mask id)

/-- What a read of the given kind finds, and the reader after it. A read that fails leaves the
reader as it is. -/
def read (reader : BatchReader) (kind : Kind) : Except Violation BatchItem × BatchReader :=
  match reader.next kind with
  | .ok (item, after) => (.ok item, after)
  | .error breach => (.error breach, reader)

/-- The reader after reads of the given kinds. -/
def readAll (reader : BatchReader) (kinds : List Kind) : BatchReader :=
  kinds.foldl (fun reader kind => (reader.read kind).2) reader

variable (reader : BatchReader) (kind : Kind)

/-- A read of a kind of which nothing is left. -/
theorem read_of_nil (none : reader.contents kind = []) :
    reader.read kind = (.error .batchExhausted, reader) := by
  obtain ⟨gates, garblerInputs, evaluatorInputs, masks⟩ := reader
  cases kind <;>
  · obtain rfl := List.map_eq_nil_iff.mp none
    rfl

/-- A read takes the first item of its kind, and nothing of any other kind. -/
theorem read_of_cons {item : BatchItem} {rest : List BatchItem}
    (some : reader.contents kind = item :: rest) :
    (reader.read kind).1 = .ok item ∧ ∀ other, (reader.read kind).2.contents other =
      if other = kind then rest else reader.contents other := by
  obtain ⟨gates, garblerInputs, evaluatorInputs, masks⟩ := reader
  cases kind <;>
  · obtain ⟨_, _, rfl, rfl, rfl⟩ := List.map_eq_cons_iff.mp some
    exact ⟨rfl, fun other => by cases other <;> rfl⟩

/-- What is left after a read. -/
theorem contents_read (other : Kind) :
    (reader.read kind).2.contents other = (reader.contents other).drop ([kind].count other) := by
  cases found : reader.contents kind with
  | nil =>
      rw [read_of_nil reader kind found]
      by_cases same : kind = other
      · subst same
        rw [found, List.drop_nil]
      · simp [same]
  | cons item rest =>
      rw [(read_of_cons reader kind found).2]
      by_cases same : kind = other
      · subst same
        simp [found]
      · simp [same, Ne.symm same]

/-- After some reads, what is left of a kind is what comes after as many items as there were reads
of the kind. -/
theorem contents_readAll (kinds : List Kind) :
    (reader.readAll kinds).contents kind = (reader.contents kind).drop (kinds.count kind) := by
  induction kinds generalizing reader with
  | nil => rfl
  | cons first kinds inductionHypothesis =>
      refine (inductionHypothesis (reader.read first).2).trans ?_
      rw [contents_read, List.drop_drop, ← List.count_append]
      rfl

theorem remaining_eq_sum :
    reader.remaining = (Kind.all.map fun kind => (reader.contents kind).length).sum := by
  simp [remaining, Kind.all, contents, Nat.add_assoc]

section

variable (kinds : List Kind)

/-- A read finds the item whose place is the number of reads of its kind before. -/
theorem read_readAll {kind : Kind} (more : kinds.count kind < (reader.contents kind).length) :
    ((reader.readAll kinds).read kind).1 = .ok (reader.contents kind)[kinds.count kind] := by
  have left : (reader.readAll kinds).contents kind = (reader.contents kind)[kinds.count kind] ::
      (reader.contents kind).drop (kinds.count kind + 1) := by
    rw [contents_readAll, List.getElem_cons_drop]
  exact (read_of_cons _ kind left).1

/-- Once there have been enough reads of a kind, the others find nothing. -/
theorem read_readAll_of_le {kind : Kind} (enough : (reader.contents kind).length ≤ kinds.count kind) :
    (reader.readAll kinds).read kind = (.error .batchExhausted, reader.readAll kinds) := by
  apply read_of_nil
  rw [contents_readAll, List.drop_eq_nil_of_le enough]

theorem remaining_readAll :
    (reader.readAll kinds).remaining =
      (Kind.all.map fun kind => (reader.contents kind).length - kinds.count kind).sum := by
  simp only [remaining_eq_sum, contents_readAll, List.length_drop]

theorem remaining_readAll_eq_zero_iff :
    (reader.readAll kinds).remaining = 0 ↔
      ∀ kind, (reader.contents kind).length ≤ kinds.count kind := by
  simp [remaining_readAll, List.sum_eq_zero_iff, Kind.mem_all, Nat.sub_eq_zero_iff_le]

end

/-- A reader of a batch whose halves belong together, with as many labels as the batch has inputs,
begins with all of the content. -/
theorem exists_ofBatch {batch : BatchPair} {labels : List Label}
    (paired : batch.gates.number = batch.masks.number)
    (enough : labels.length = batch.gates.evaluatorInputs.toNat) :
    ∃ reader, ofBatch batch labels = .ok reader ∧ reader.contents = batch.contents labels := by
  rw [ofBatch, if_neg (not_not_intro paired), if_neg (not_not_intro enough)]
  refine ⟨_, rfl, funext fun kind => ?_⟩
  cases kind <;> rfl

/-- Of every kind, a batch has what was added to the draft since the batch before it, and nothing
else; it begins with the gate that was announced with the batch before it, and tells how many zero
labels go with it. A reader finds all of the content of a batch, however its reads are mixed, and
ends well exactly if it has found everything. -/
theorem reads_what_was_added :
    (∀ calls : List Draft.Call,
      let taken := (Draft.perform {} calls).1
      let left := (Draft.perform {} calls).2
      (∀ kind, taken.map (fun entry => entry.1.contents entry.2 kind) ++ [left.contents kind] =
        (calls.splitOnP Draft.Call.isTake).map fun between =>
          ofKind (between.filterMap Draft.Call.item?) kind) ∧
      (∀ kind, taken.flatMap (fun entry => entry.1.contents entry.2 kind) ++ left.contents kind =
        ofKind (calls.filterMap Draft.Call.item?) kind) ∧
      taken.map (·.1.gates.firstGate) ++ [left.firstGate] =
        0 :: calls.filterMap Draft.Call.nextGate? ∧
      taken.map (fun entry => (entry.1.gates.number, entry.1.masks.number)) =
        (calls.filterMap Draft.Call.number?).map (fun number => (number, number)) ∧
      taken.map (·.1.gates.evaluatorInputs) =
        taken.map fun entry => UInt64.ofNat entry.2.length) ∧
    ∀ (batch : BatchPair) (labels : List Label), batch.gates.number = batch.masks.number →
      labels.length = batch.gates.evaluatorInputs.toNat →
      ∃ reader, ofBatch batch labels = .ok reader ∧ ∀ kinds : List Kind,
        let after := reader.readAll kinds
        let unread :=
          (Kind.all.map fun kind => (batch.contents labels kind).length - kinds.count kind).sum
        (∀ kind (more : kinds.count kind < (batch.contents labels kind).length),
          (after.read kind).1 = .ok (batch.contents labels kind)[kinds.count kind]) ∧
        (∀ kind, (batch.contents labels kind).length ≤ kinds.count kind →
          after.read kind = (.error .batchExhausted, after)) ∧
        (after.finish = .ok () ↔
          ∀ kind, (batch.contents labels kind).length ≤ kinds.count kind) ∧
        (after.finish ≠ .ok () → after.finish = .error (.trailingBatchData unread)) := by
  refine ⟨fun calls => ⟨fun kind => ?_, fun kind => ?_, Draft.firstGates_perform {} calls,
    Draft.numbers_perform {} calls, Draft.evaluatorInputs_perform {} calls⟩,
    fun batch labels paired enough => ?_⟩
  · rw [Draft.contents_perform, Draft.contents_empty]
    exact congrFun List.modifyHead_id _
  · rw [Draft.flatMap_contents_perform, Draft.contents_empty, List.nil_append]
  · obtain ⟨reader, begun, same⟩ := exists_ofBatch paired enough
    refine ⟨reader, begun, fun kinds => ?_⟩
    rw [← same]
    refine ⟨fun kind more => reader.read_readAll kinds more,
      fun kind enough => reader.read_readAll_of_le kinds enough, ?_, ?_⟩
    · rw [← remaining_readAll_eq_zero_iff, finish]
      split <;> simp [*]
    · rw [← remaining_readAll, finish]
      split <;> simp

/-- The second batch of a draft has two inputs of the evaluator and one of the garbler, and no
gate. -/
theorem reads_what_was_added_to_two_batches :
    let calls : List Draft.Call :=
      [.add (.mask ⟨true⟩), .add (.gate ⟨⟨1⟩, ⟨2⟩⟩), .take 0 1, .add (.evaluatorInput ⟨3⟩),
        .add (.garblerInput ⟨4⟩), .add (.evaluatorInput ⟨5⟩), .take 1 1, .add (.mask ⟨false⟩)]
    let batch : BatchPair := ⟨⟨1, 1, [], [⟨4⟩], 2⟩, ⟨1, []⟩⟩
    let labels : List Label := [⟨6⟩, ⟨7⟩]
    (Draft.perform {} calls).1[1]? = some (batch, [⟨3⟩, ⟨5⟩]) ∧
    batch.gates.number = batch.masks.number ∧
    labels.length = batch.gates.evaluatorInputs.toNat ∧
    ∃ reader, ofBatch batch labels = .ok reader ∧
      let after := reader.readAll [.evaluatorInput, .gate]
      (after.read .evaluatorInput).1 = .ok (.evaluatorInput ⟨7⟩) ∧
      after.read .gate = (.error .batchExhausted, after) ∧
      after.finish = .error (.trailingBatchData 2) := by
  intro calls batch labels
  obtain ⟨reader, begun, reads⟩ := reads_what_was_added.2 batch labels rfl rfl
  obtain ⟨found, exhausted, ends, left⟩ := reads [.evaluatorInput, .gate]
  refine ⟨rfl, rfl, rfl, reader, begun, found .evaluatorInput (by decide),
    exhausted .gate (by decide), left fun ended => ?_⟩
  exact absurd (ends.mp ended .garblerInput) (by decide)

end BatchReader

end Garbling
