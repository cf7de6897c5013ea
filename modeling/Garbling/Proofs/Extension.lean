import Mathlib
import Garbling.Proofs.BaseTransfer
import Garbling.Proofs.Bits
import Garbling.Proofs.HalfGate
import Garbling.Transfer.Extension

/-!
# Extended transfers

After the setup the sender holds, for each column, the generator of the receiver that a bit of
the offset selects, and every round keeps it so. A round leaves both sides with the same rows,
up to the offset in the rows whose choice is set.
-/

namespace Garbling

namespace Extension

open Session

variable {suite : Suite} {offset : Offset}

/-- From a column on, the sender has the generators that the bits of the offset select. -/
inductive Synced (offset : Offset) :
    (index : Nat) → List suite.Generator → List (suite.Generator × suite.Generator) → Prop
  | nil {index : Nat} : Synced offset index [] []
  | cons {index : Nat} {first second : suite.Generator} {senders : List suite.Generator}
      {receivers : List (suite.Generator × suite.Generator)}
      (rest : Synced offset (index + 1) senders receivers) :
      Synced offset index ((if offset.bit index then second else first) :: senders)
        ((first, second) :: receivers)

theorem Synced.length {index : Nat} {senders : List suite.Generator}
    {receivers : List (suite.Generator × suite.Generator)}
    (synced : Synced offset index senders receivers) : senders.length = receivers.length := by
  induction synced with
  | nil => rfl
  | cons rest inductionHypothesis => simp [inductionHypothesis]

/-- From a column on, the columns of both sides are of the given width. They are the same where
the offset has no bit, and differ by the choices where it has one. -/
inductive Differ (offset : Offset) (choices : Bytes) :
    (index : Nat) → (senders receivers : List Bytes) → Prop
  | nil {index : Nat} : Differ offset choices index [] []
  | cons {index : Nat} {column : Bytes} {senders receivers : List Bytes}
      (width : column.length = choices.length)
      (rest : Differ offset choices (index + 1) senders receivers) :
      Differ offset choices index
        ((if offset.bit index then column.xor choices else column) :: senders)
        (column :: receivers)

theorem Differ.length {choices : Bytes} {index : Nat} {senders receivers : List Bytes}
    (differ : Differ offset choices index senders receivers) :
    senders.length = receivers.length := by
  induction differ with
  | nil => rfl
  | cons width rest inductionHypothesis => simp [inductionHypothesis]

theorem Differ.getElem? {choices : Bytes} {index : Nat} {senders receivers : List Bytes}
    (differ : Differ offset choices index senders receivers) {place : Nat} {column : Bytes}
    (found : receivers[place]? = some column) :
    column.length = choices.length ∧ senders[place]? =
      some (if offset.bit (index + place) then column.xor choices else column) := by
  induction differ generalizing place with
  | nil => simp at found
  | cons width rest inductionHypothesis =>
      cases place with
      | zero =>
          cases found
          exact ⟨width, rfl⟩
      | succ place =>
          obtain ⟨same, other⟩ := inductionHypothesis found
          rw [Nat.add_right_comm] at other
          exact ⟨same, other⟩

/-- A round keeps the generators in step, and gives columns that differ by the choices. -/
theorem Synced.columns (lawful : suite.Lawful) (choices : Bytes) {index : Nat}
    {senders : List suite.Generator} {receivers : List (suite.Generator × suite.Generator)}
    (synced : Synced offset index senders receivers) :
    ∃ columns own masked after others,
      receiverColumns choices receivers = (own.zip masked, others) ∧
      own.length = masked.length ∧
      senderColumns offset choices.length index senders masked = (.ok columns, after) ∧
      Synced offset index after others ∧ Differ offset choices index columns own ∧
      masked.length = receivers.length ∧ others.length = receivers.length ∧
      ∀ column ∈ masked, column.length = choices.length := by
  induction synced with
  | nil => exact ⟨[], [], [], [], [], rfl, rfl, rfl, .nil, .nil, rfl, rfl, by simp⟩
  | @cons index first second senders receivers rest inductionHypothesis =>
      obtain ⟨columns, own, masked, after, others, receives, same, sends, synced, differ, count,
        left, widths⟩ := inductionHypothesis
      have ownWidth := lawful.length_fill first choices.length
      have otherWidth := lawful.length_fill second choices.length
      generalize ownFilled : suite.fill first choices.length = ownFill at ownWidth
      generalize otherFilled : suite.fill second choices.length = otherFill at otherWidth
      obtain ⟨column, firstAfter⟩ := ownFill
      obtain ⟨other, secondAfter⟩ := otherFill
      have width : ((other.xor column).xor choices).length = choices.length := by
        simpa using otherWidth
      refine ⟨(if offset.bit index then column.xor choices else column) :: columns,
        column :: own, (other.xor column).xor choices :: masked,
        (if offset.bit index then secondAfter else firstAfter) :: after,
        (firstAfter, secondAfter) :: others, ?_, ?_, ?_, .cons synced, .cons ownWidth differ, ?_,
        ?_, ?_⟩
      · simp only [receiverColumns, ownFilled, otherFilled, receives, List.zip_cons_cons]
      · simp [same]
      · have cancel : other.xor ((other.xor column).xor choices) = column.xor choices :=
          Bytes.xor_xor_xor (otherWidth.trans ownWidth.symm) otherWidth
        simp only [senderColumns, width, ne_eq, not_true, if_false, sends]
        cases offset.bit index with
        | false =>
            simp only [Bool.false_eq_true, if_false, ownFilled]
            rfl
        | true =>
            simp only [if_true, otherFilled, cancel]
            rfl
      · simp [count]
      · simp [left]
      · simpa using ⟨otherWidth, widths⟩

/-- Rows of columns that differ by the choices differ by the offset where the choice is set. -/
theorem Differ.rows {choices : List Bool} {senders receivers : List Bytes}
    (differ : Differ offset (Bits.pack choices) 0 senders receivers)
    (width : receivers.length = columnCount) :
    (Bits.transpose senders choices.length).map Label.mk =
      ((Bits.transpose receivers choices.length).map Label.mk).zipWith (·.active offset ·)
        choices := by
  apply List.ext_getElem?
  intro index
  by_cases inside : index < choices.length
  · have row : Bits.row senders index =
        Bits.row receivers index ^^^ (offset.times choices[index]).bits := by
      apply BitVec.eq_of_getLsbD_eq
      intro place below
      have placed : place < receivers.length := width ▸ below
      obtain ⟨same, found⟩ := differ.getElem? (List.getElem?_eq_getElem placed)
      rw [BitVec.getLsbD_xor, Bits.getLsbD_row (differ.length.trans width), Bits.getLsbD_row width,
        found, List.getElem?_eq_getElem placed]
      have chosen : Bits.ofColumn (Bits.pack choices) index = choices[index] := by
        rw [Bits.ofColumn_pack, List.getElem?_eq_getElem inside]
        rfl
      have bit : (offset.times choices[index]).bits.getLsbD place =
          (choices[index] && offset.bit place) := by
        cases choices[index] with
        | false => exact BitVec.getLsbD_zero
        | true => rfl
      rw [Nat.zero_add, bit]
      simp only [Option.map_some, Option.getD_some]
      cases offset.bit place with
      | false => simp
      | true => simp [Bits.ofColumn_xor same, chosen]
    simp [Bits.transpose, inside, row, Label.active]
    rfl
  · simp [Bits.transpose, inside]

theorem drawPairs_succeeds (suite : Suite) (count : Nat) (generator : suite.Generator) :
    ∃ pairs after, (drawPairs suite count).Succeeds generator [] pairs after ∧
      pairs.length = count := by
  induction count generalizing generator with
  | zero => exact ⟨[], generator, succeeds_pure _ _, rfl⟩
  | succ count inductionHypothesis =>
      obtain ⟨pairs, after, draws, length⟩ :=
        inductionHypothesis (suite.word (suite.word generator).2).2
      refine ⟨((suite.word generator).1, (suite.word (suite.word generator).2).1) :: pairs, after,
        ?_, by rw [List.length_cons, length]⟩
      apply Succeeds.bind (succeeds_modifyGet _ _)
      apply Succeeds.bind (succeeds_modifyGet _ _)
      apply Succeeds.bind draws
      exact succeeds_pure _ _

/-- The seeds that the bits of the offset select give generators that are in step. -/
theorem synced_expand (offset : Offset) (index : Nat) (pairs : List (Word × Word)) :
    @Synced suite offset index
      ((((List.range' index pairs.length).map offset.bit).zipWith selectWord pairs).map suite.expand)
      (pairs.map fun (first, second) => (suite.expand first, suite.expand second)) := by
  induction pairs generalizing index with
  | nil => exact .nil
  | cons pair pairs inductionHypothesis =>
      have head : suite.expand (selectWord (offset.bit index) pair) =
          if offset.bit index then suite.expand pair.2 else suite.expand pair.1 := by
        cases offset.bit index <;> rfl
      simp only [List.length_cons, List.range'_succ, List.map_cons, List.zipWith_cons_cons, head]
      exact .cons (inductionHypothesis (index + 1))

/-- The setup of both sides. The garbler, which is the sender, sends one message. -/
theorem agree_setup (lawful : suite.Lawful) (offset : Offset)
    (garbler evaluator : suite.Generator) :
    ∃ message senders receivers evaluatorAfter,
      Agree (setup (some offset)) (setup none) (.idle, garbler) (.idle, evaluator) [message]
        ((), .sender offset senders, BaseTransfer.afterScalars suite columnCount garbler)
        ((), .receiver receivers, evaluatorAfter) ∧
      Synced offset 0 senders receivers ∧ receivers.length = columnCount := by
  obtain ⟨pairs, middle, draws, length⟩ := drawPairs_succeeds suite columnCount evaluator
  have same : ((List.range columnCount).map offset.bit).length = pairs.length := by
    rw [List.length_map, List.length_range, length]
  have short : pairs.length < UInt64.size := by
    rw [length]
    decide
  obtain ⟨message, evaluatorAfter, agree⟩ :=
    BaseTransfer.agree_receive lawful same short garbler middle
  rw [same, length] at agree
  refine ⟨message,
    (((List.range columnCount).map offset.bit).zipWith selectWord pairs).map suite.expand,
    pairs.map fun (first, second) => (suite.expand first, suite.expand second),
    evaluatorAfter, ?_, ?_, ?_⟩
  · apply Agree.bind_garbler (succeeds_get _)
    apply Agree.bind_evaluator (succeeds_get _)
    have seeds : Agree (setupSender suite offset) (setupReceiver suite) garbler evaluator [message]
        (.sender offset ((((List.range columnCount).map offset.bit).zipWith selectWord pairs).map
          suite.expand), BaseTransfer.afterScalars suite columnCount garbler)
        (.receiver (pairs.map fun (first, second) => (suite.expand first, suite.expand second)),
          evaluatorAfter) := by
      apply Agree.bind_evaluator draws
      refine Agree.garbler_then (Agree.evaluator_then agree ?_) ?_
      · exact succeeds_pure _ _
      · exact succeeds_pure _ _
    refine Agree.garbler_then (Agree.evaluator_then (Agree.zoom_garbler (Agree.zoom_evaluator seeds)) ?_) ?_
    · exact succeeds_modify _ _
    · exact succeeds_modify _ _
  · rw [List.range_eq_range', ← length]
    exact synced_expand offset 0 pairs
  · rw [List.length_map, length]

/-- One round of transfers. Both sides get the same rows, up to the offset where the choice is
set. The garbler sends nothing. -/
theorem agree_extend (lawful : suite.Lawful) {senders : List suite.Generator}
    {receivers : List (suite.Generator × suite.Generator)}
    (synced : Synced offset 0 senders receivers) (width : receivers.length = columnCount)
    {choices : List Bool} (short : choices.length < UInt64.size) :
    ∃ rows sendersAfter receiversAfter,
      Agree (extend choices.length []) (extend choices.length choices) (.sender offset senders)
        (.receiver receivers) [] (rows.zipWith (·.active offset ·) choices,
          .sender offset sendersAfter) (rows, .receiver receiversAfter) ∧
      Synced offset 0 sendersAfter receiversAfter ∧ receiversAfter.length = columnCount ∧
      rows.length = choices.length := by
  obtain ⟨columns, own, masked, sendersAfter, receiversAfter, receives, same, sends, syncedAfter,
    differ, count, others, widths⟩ := synced.columns lawful (Bits.pack choices)
  have exact : Layout.fixed.columns.ExactAt masked := by
    apply Layout.sound_fixed.columns
    · rw [count, width]
      decide
    · intro column member
      have packed := widths column member
      rw [Bits.length_pack] at packed
      omega
  refine ⟨(Bits.transpose own choices.length).map Label.mk, sendersAfter, receiversAfter, ?_,
    syncedAfter, ?_, by simp⟩
  · apply Agree.bind_garbler (succeeds_get _)
    apply Agree.bind_evaluator (succeeds_get _)
    simp only [ne_eq, not_true, if_false, receives, List.map_snd_zip, List.map_fst_zip, same,
      Nat.le_refl]
    apply Agree.bind_evaluator (succeeds_set _ _)
    apply Agree.bind (agree_receiveList_send exact (count.trans synced.length.symm))
    rw [← Bits.length_pack, sends]
    apply Agree.bind_garbler (succeeds_set _ _)
    apply Agree.bind_garbler (succeeds_allowed rfl _)
    rw [← differ.rows (same.trans (count.trans width))]
    exact agree_of_silent (succeeds_pure _ _) (succeeds_pure _ _)
  · exact others.trans width

end Extension

end Garbling
