import Mathlib
import Garbling.Proofs.Operations

/-!
# Accounting for the contents of batches

Every instruction needs a fixed number of items of each kind. Garbling adds exactly that many
items to its draft, and evaluating takes exactly that many out of its batch, so both can be
counted by the instructions that were executed.
-/

namespace Garbling

/-- A kind of content of a batch. -/
inductive Item where
  | gate
  | garblerInput
  | evaluatorInput
  | mask
deriving DecidableEq, Repr

/-- The number of items of a kind that executing an instruction needs: a gate for
a conjunction, a label for an input, and a mask for each wire that is revealed. -/
def Instruction.needs : Instruction → Item → Nat
  | .and .., .gate => 1
  | .garblerInput _, .garblerInput => 1
  | .evaluatorInput _, .evaluatorInput => 1
  | .reveal _ src, .mask => src.length
  | .output src, .mask => src.length
  | _, _ => 0

/-- The number of items of a kind that some instructions need. -/
def Instruction.allNeed (instructions : List Instruction) (item : Item) : Nat :=
  (instructions.map (·.needs item)).sum

namespace Instruction

@[simp] theorem allNeed_nil (item : Item) : allNeed [] item = 0 := rfl

@[simp] theorem allNeed_cons (instruction : Instruction) (rest : List Instruction) (item : Item) :
    allNeed (instruction :: rest) item = instruction.needs item + allNeed rest item := by
  simp [allNeed]

theorem allNeed_append (first rest : List Instruction) (item : Item) :
    allNeed (first ++ rest) item = allNeed first item + allNeed rest item := by
  simp [allNeed]

/-- Every instruction needs at most one item of each kind other than masks. -/
theorem needs_le_one (instruction : Instruction) {item : Item} (other : item ≠ .mask) :
    instruction.needs item ≤ 1 := by
  cases item with
  | mask => contradiction
  | gate | garblerInput | evaluatorInput => cases instruction <;> simp [needs]

theorem allNeed_le_length (instructions : List Instruction) {item : Item} (other : item ≠ .mask) :
    allNeed instructions item ≤ instructions.length := by
  induction instructions with
  | nil => simp
  | cons instruction rest inductionHypothesis =>
      have one := instruction.needs_le_one other
      rw [allNeed_cons, List.length_cons]
      omega

/-- What a few instructions need can be counted by words if the masks can. -/
theorem allNeed_lt_size {instructions : List Instruction} (few : instructions.length < UInt64.size)
    (masks : allNeed instructions .mask < UInt64.size) (item : Item) :
    allNeed instructions item < UInt64.size := by
  by_cases mask : item = .mask
  · rwa [mask]
  · exact (allNeed_le_length instructions mask).trans_lt few

/-- Masks are needed for the wires that are revealed. -/
theorem allNeed_mask (instructions : List Instruction) :
    allNeed instructions .mask = (instructions.map width).sum := by
  induction instructions with
  | nil => rfl
  | cons instruction rest inductionHypothesis =>
      rw [allNeed_cons, inductionHypothesis, List.map_cons, List.sum_cons]
      cases instruction <;> rfl

end Instruction

/-- The number of items of a kind in a draft. -/
def Draft.amount (draft : Draft) : Item → Nat
  | .gate => draft.gates.size
  | .garblerInput => draft.garblerInputs.size
  | .evaluatorInput => draft.evaluatorInputs.size
  | .mask => draft.masks.size

/-- A draft to which nothing has been added has no items. -/
@[simp] theorem Draft.amount_empty (firstGate : UInt64) (item : Item) :
    ({ firstGate } : Draft).amount item = 0 := by
  cases item <;> rfl

/-- The number of items of a kind that a reader has left. -/
def BatchReader.amount (reader : BatchReader) : Item → Nat
  | .gate => reader.gates.length
  | .garblerInput => reader.garblerInputs.length
  | .evaluatorInput => reader.evaluatorInputs.length
  | .mask => reader.masks.length

/-- The number of items of a kind in a batch. -/
def BatchPair.amount (batch : BatchPair) : Item → Nat
  | .gate => batch.gates.gates.length
  | .garblerInput => batch.gates.garblerInputs.length
  | .evaluatorInput => batch.gates.evaluatorInputs.toNat
  | .mask => batch.masks.masks.length

namespace BatchReader

/-- A batch that has been used up has nothing left of any kind. -/
theorem finish_eq_ok_iff {reader : BatchReader} :
    reader.finish = .ok () ↔ ∀ item, reader.amount item = 0 := by
  unfold finish
  constructor
  · intro finished item
    split at finished
    · next nothing =>
        simp only [remaining] at nothing
        cases item <;> simp only [amount] <;> omega
    · cases finished
  · intro nothing
    have gates := nothing .gate
    have garblerInputs := nothing .garblerInput
    have evaluatorInputs := nothing .evaluatorInput
    have masks := nothing .mask
    simp only [amount] at gates garblerInputs evaluatorInputs masks
    rw [if_pos (by simp only [remaining]; omega)]

/-- A reader that is made of a batch holds as much as the batch. -/
theorem amount_of_ofBatch {batch : BatchPair} {labels : List Label} {reader : BatchReader}
    (made : ofBatch batch labels = .ok reader) (item : Item) :
    reader.amount item = batch.amount item := by
  unfold ofBatch at made
  split at made
  · cases made
  · split at made
    · cases made
    · next belongs =>
        cases made
        cases item with
        | evaluatorInput => exact not_not.mp belongs
        | gate | garblerInput | mask => rfl

end BatchReader

namespace Plain

variable {known : Bool} {before after : Plain}

/-- Executing an instruction uses the inputs of the evaluator that the instruction needs. -/
theorem evaluatorInputs_of_effect {instruction : Instruction}
    (effect : (backend known).Effect instruction before after) :
    ∃ used, before.evaluatorInputs = used ++ after.evaluatorInputs ∧
      used.length = instruction.needs .evaluatorInput := by
  cases instruction with
  | garblerInput dst =>
      obtain ⟨bit, performed⟩ := effect
      obtain ⟨rest, _, rfl⟩ := garblerInput_eq_ok.mp performed
      exact ⟨[], rfl, rfl⟩
  | evaluatorInput dst =>
      obtain ⟨bit, performed⟩ := effect
      obtain ⟨rest, held, rfl⟩ := evaluatorInput_eq_ok.mp performed
      exact ⟨[bit], held, rfl⟩
  | and dst lhs rhs =>
      obtain ⟨left, right, bit, performed⟩ := effect
      rw [runFrom_and] at performed
      cases performed
      exact ⟨[], rfl, rfl⟩
  | reveal dst src =>
      obtain ⟨bits, value, _, performed⟩ := effect
      cases known <;> cases performed <;> exact ⟨[], rfl, rfl⟩
  | output src =>
      obtain ⟨bits, _, _, performed⟩ := effect
      rw [runFrom_output] at performed
      cases performed
      exact ⟨[], rfl, rfl⟩
  | xor | not | constant | store | load | jumpIfZero | jump =>
      cases effect
      exact ⟨[], rfl, rfl⟩

/-- Executing some instructions uses the inputs of the evaluator that they need. -/
theorem evaluatorInputs_of_effects {instructions : List Instruction}
    (effects : Machine.Effects (backend known) instructions before after) :
    ∃ used, before.evaluatorInputs = used ++ after.evaluatorInputs ∧
      used.length = Instruction.allNeed instructions .evaluatorInput := by
  induction effects with
  | nil => exact ⟨[], rfl, rfl⟩
  | cons head tail inductionHypothesis =>
      obtain ⟨first, one, firstLength⟩ := evaluatorInputs_of_effect head
      obtain ⟨rest, others, restLength⟩ := inductionHypothesis
      refine ⟨first ++ rest, ?_, ?_⟩
      · rw [one, others, List.append_assoc]
      · rw [List.length_append, firstLength, restLength, Instruction.allNeed_cons]

end Plain

namespace GarblingState

variable {suite : Suite} {offset : Offset} {before after : GarblingState suite}

/-- Garbling an instruction adds what the instruction needs. -/
theorem amount_of_effect {instruction : Instruction}
    (effect : (backend suite offset).Effect instruction before after) (item : Item) :
    after.draft.amount item = before.draft.amount item + instruction.needs item := by
  cases instruction with
  | garblerInput dst =>
      obtain ⟨zero, performed⟩ := effect
      obtain ⟨bit, rest, _, _, rfl⟩ := garblerInput_eq_ok.mp performed
      cases item <;> simp [Draft.amount, Instruction.needs, Draft.addGarblerInput]
  | evaluatorInput dst =>
      obtain ⟨zero, performed⟩ := effect
      rw [runFrom_evaluatorInput] at performed
      cases performed
      cases item <;> simp [Draft.amount, Instruction.needs, Draft.addEvaluatorInput]
  | and dst lhs rhs =>
      obtain ⟨left, right, zero, performed⟩ := effect
      rw [runFrom_and] at performed
      cases performed
      cases item <;> simp [Draft.amount, Instruction.needs, Draft.addGate]
  | reveal dst src =>
      obtain ⟨zeroLabels, value, length, performed⟩ := effect
      rw [runFrom_reveal] at performed
      cases performed
      cases item <;> simp [Draft.amount, Instruction.needs, Draft.addMasks, length]
  | output src =>
      obtain ⟨zeroLabels, _, length, performed⟩ := effect
      rw [runFrom_output] at performed
      cases performed
      cases item <;> simp [Draft.amount, Instruction.needs, Draft.addMasks, length]
  | xor | not | constant | store | load | jumpIfZero | jump =>
      cases effect
      cases item <;> rfl

/-- Garbling some instructions adds what they need. -/
theorem amount_of_effects {instructions : List Instruction}
    (effects : Machine.Effects (backend suite offset) instructions before after) (item : Item) :
    after.draft.amount item =
      before.draft.amount item + Instruction.allNeed instructions item := by
  induction effects with
  | nil => simp
  | cons head tail inductionHypothesis =>
      rw [inductionHypothesis, amount_of_effect head, Instruction.allNeed_cons]
      omega

/-- Garbling counts the gates. -/
theorem gateCount_of_effect {instruction : Instruction}
    (effect : (backend suite offset).Effect instruction before after) :
    after.gateCount = before.gateCount + UInt64.ofNat (instruction.needs .gate) ∧
      after.draft.firstGate = before.draft.firstGate := by
  cases instruction with
  | garblerInput dst =>
      obtain ⟨zero, performed⟩ := effect
      obtain ⟨bit, rest, _, _, rfl⟩ := garblerInput_eq_ok.mp performed
      exact ⟨(UInt64.add_zero _).symm, rfl⟩
  | evaluatorInput dst =>
      obtain ⟨zero, performed⟩ := effect
      rw [runFrom_evaluatorInput] at performed
      cases performed
      exact ⟨(UInt64.add_zero _).symm, rfl⟩
  | and dst lhs rhs =>
      obtain ⟨left, right, zero, performed⟩ := effect
      rw [runFrom_and] at performed
      cases performed
      exact ⟨rfl, rfl⟩
  | reveal dst src =>
      obtain ⟨zeroLabels, value, length, performed⟩ := effect
      rw [runFrom_reveal] at performed
      cases performed
      exact ⟨(UInt64.add_zero _).symm, rfl⟩
  | output src =>
      obtain ⟨zeroLabels, _, length, performed⟩ := effect
      rw [runFrom_output] at performed
      cases performed
      exact ⟨(UInt64.add_zero _).symm, rfl⟩
  | xor | not | constant | store | load | jumpIfZero | jump =>
      cases effect
      exact ⟨(UInt64.add_zero _).symm, rfl⟩

/-- The first gate of a draft stays what it is. -/
theorem firstGate_of_effects {instructions : List Instruction}
    (effects : Machine.Effects (backend suite offset) instructions before after) :
    after.draft.firstGate = before.draft.firstGate := by
  induction effects with
  | nil => rfl
  | cons head tail inductionHypothesis =>
      rw [inductionHypothesis, (gateCount_of_effect head).2]

/-- A slice within a budget adds no more items of a kind than its budget, masks excepted. -/
theorem amount_le_of_slice {program : Program} {budget : Nat}
    {machine final : Machine Label (GarblingState suite)} {executed : List Instruction}
    {ending : Break}
    (slice : Machine.Slice (backend suite offset) program budget machine executed ending final)
    {item : Item} (other : item ≠ .mask) :
    final.backend.draft.amount item ≤ machine.backend.draft.amount item + budget := by
  obtain ⟨attempted, bound, effects⟩ := slice.effects_le
  have needed := Instruction.allNeed_le_length attempted other
  rw [amount_of_effects effects item]
  omega

end GarblingState

namespace EvaluationState

variable {pad : Pad} {before after : EvaluationState}

/-- Evaluating an instruction takes what the instruction needs, and counts the gates. -/
theorem amount_of_effect {instruction : Instruction}
    (effect : (backend pad).Effect instruction before after) :
    (∀ item, before.reader.amount item = instruction.needs item + after.reader.amount item) ∧
      after.gateCount = before.gateCount + UInt64.ofNat (instruction.needs .gate) := by
  cases instruction with
  | garblerInput dst =>
      obtain ⟨label, performed⟩ := effect
      obtain ⟨rest, held, rfl⟩ := garblerInput_eq_ok.mp performed
      refine ⟨fun item => ?_, (UInt64.add_zero _).symm⟩
      cases item <;> simp [BatchReader.amount, Instruction.needs, held, Nat.add_comm]
  | evaluatorInput dst =>
      obtain ⟨label, performed⟩ := effect
      obtain ⟨rest, held, rfl⟩ := evaluatorInput_eq_ok.mp performed
      refine ⟨fun item => ?_, (UInt64.add_zero _).symm⟩
      cases item <;> simp [BatchReader.amount, Instruction.needs, held, Nat.add_comm]
  | and dst lhs rhs =>
      obtain ⟨left, right, label, performed⟩ := effect
      obtain ⟨gate, rest, held, _, rfl⟩ := and_eq_ok.mp performed
      refine ⟨fun item => ?_, rfl⟩
      cases item <;> simp [BatchReader.amount, Instruction.needs, held, Nat.add_comm]
  | reveal dst src =>
      obtain ⟨labels, value, length, performed⟩ := effect
      obtain ⟨masks, rest, held, masksLength, _, rfl⟩ := reveal_eq_ok.mp performed
      refine ⟨fun item => ?_, (UInt64.add_zero _).symm⟩
      cases item <;> simp [BatchReader.amount, Instruction.needs, held, masksLength, length]
  | output src =>
      obtain ⟨labels, _, length, performed⟩ := effect
      obtain ⟨masks, rest, held, masksLength, rfl⟩ := output_eq_ok.mp performed
      refine ⟨fun item => ?_, (UInt64.add_zero _).symm⟩
      cases item <;> simp [BatchReader.amount, Instruction.needs, held, masksLength, length]
  | xor | not | constant | store | load | jumpIfZero | jump =>
      cases effect
      refine ⟨fun item => ?_, (UInt64.add_zero _).symm⟩
      cases item <;> simp [Instruction.needs]

/-- Evaluating some instructions takes what they need, and counts their gates. -/
theorem amount_of_effects {instructions : List Instruction}
    (effects : Machine.Effects (backend pad) instructions before after) :
    (∀ item, before.reader.amount item =
        Instruction.allNeed instructions item + after.reader.amount item) ∧
      after.gateCount =
        before.gateCount + UInt64.ofNat (Instruction.allNeed instructions .gate) := by
  induction effects with
  | nil => exact ⟨fun item => by simp, (UInt64.add_zero _).symm⟩
  | cons head tail inductionHypothesis =>
      obtain ⟨headAmounts, headCount⟩ := amount_of_effect head
      obtain ⟨tailAmounts, tailCount⟩ := inductionHypothesis
      constructor
      · intro item
        rw [headAmounts, tailAmounts, Instruction.allNeed_cons]
        omega
      · rw [tailCount, headCount, Instruction.allNeed_cons, UInt64.ofNat_add, UInt64.add_assoc]

end EvaluationState

end Garbling
