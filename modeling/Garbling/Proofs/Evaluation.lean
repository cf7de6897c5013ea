import Mathlib
import Garbling.Proofs.Tracked

/-!
# Evaluation follows garbling

Evaluation follows tracked garbling when the batch in its reader is the final draft of the
slice, less what the draft of the garbler holds already, and the labels of the evaluator's
inputs stand for its input bits. Every wire of the evaluator carries the active label of the
wire of the garbler.

Evaluation also does the same whether or not there is more in the batch than it reads.
-/

namespace Garbling

/-- What follows a part of the beginning of a list. -/
theorem drop_eq_of_append {item : Type} {beginning added whole : List item}
    (begins : beginning ++ added <+: whole) :
    whole.drop beginning.length = added ++ whole.drop (beginning ++ added).length := by
  obtain ⟨rest, rfl⟩ := begins
  simp

/-- The reader holds what the final draft has beyond the present one; the labels of the
evaluator's inputs are those that the choices select. -/
structure BatchReader.Ahead (offset : Offset) (final draft : Draft) (choices : List Bool)
    (reader : BatchReader) : Prop where
  gates : reader.gates = final.gates.toList.drop draft.gates.toList.length
  garblerInputs :
    reader.garblerInputs = final.garblerInputs.toList.drop draft.garblerInputs.toList.length
  evaluatorInputs : reader.evaluatorInputs =
    (final.evaluatorInputs.toList.drop draft.evaluatorInputs.toList.length).zipWith
      (·.active offset ·) choices
  masks : reader.masks = final.masks.toList.drop draft.masks.toList.length

namespace BatchReader.Ahead

variable {offset : Offset} {final draft : Draft} {choices : List Bool} {reader : BatchReader}

theorem addGate (ahead : Ahead offset final draft choices reader) {gate : Gate}
    (begins : (draft.addGate gate).Begins final) :
    ∃ rest, reader.gates = gate :: rest ∧
      Ahead offset final (draft.addGate gate) choices { reader with gates := rest } := by
  have split := begins.gates
  simp only [Draft.addGate, Array.toList_push] at split
  refine ⟨_, ahead.gates.trans (drop_eq_of_append split), { ahead with gates := ?_ }⟩
  simp only [Draft.addGate, Array.toList_push]
  rfl

theorem addGarblerInput (ahead : Ahead offset final draft choices reader) {label : Label}
    (begins : (draft.addGarblerInput label).Begins final) :
    ∃ rest, reader.garblerInputs = label :: rest ∧
      Ahead offset final (draft.addGarblerInput label) choices
        { reader with garblerInputs := rest } := by
  have split := begins.garblerInputs
  simp only [Draft.addGarblerInput, Array.toList_push] at split
  refine ⟨_, ahead.garblerInputs.trans (drop_eq_of_append split),
    { ahead with garblerInputs := ?_ }⟩
  simp only [Draft.addGarblerInput, Array.toList_push]
  rfl

theorem addEvaluatorInput {choice : Bool}
    (ahead : Ahead offset final draft (choice :: choices) reader) {zero : Label}
    (begins : (draft.addEvaluatorInput zero).Begins final) :
    ∃ rest, reader.evaluatorInputs = zero.active offset choice :: rest ∧
      Ahead offset final (draft.addEvaluatorInput zero) choices
        { reader with evaluatorInputs := rest } := by
  have split := begins.evaluatorInputs
  simp only [Draft.addEvaluatorInput, Array.toList_push] at split
  refine ⟨_, ahead.evaluatorInputs.trans (congrArg (List.zipWith _ · _)
    (drop_eq_of_append split)), { ahead with evaluatorInputs := ?_ }⟩
  simp only [Draft.addEvaluatorInput, Array.toList_push]
  rfl

theorem addMasks (ahead : Ahead offset final draft choices reader) {zeroLabels : List Label}
    (begins : (draft.addMasks zeroLabels).Begins final) :
    ∃ rest, reader.masks = (zeroLabels.map fun zero => (⟨zero.color⟩ : Mask)) ++ rest ∧
      Ahead offset final (draft.addMasks zeroLabels) choices { reader with masks := rest } := by
  have split := begins.masks
  simp only [Draft.addMasks, Array.toList_append] at split
  refine ⟨_, ahead.masks.trans (drop_eq_of_append split), { ahead with masks := ?_ }⟩
  simp only [Draft.addMasks, Array.toList_append]

/-- Nothing is left to read when the draft is final. -/
theorem remaining (ahead : Ahead offset final final choices reader) : reader.remaining = 0 := by
  simp [BatchReader.remaining, ahead.gates, ahead.garblerInputs, ahead.evaluatorInputs,
    ahead.masks]

end BatchReader.Ahead

/-- The masks of some wires turn their active labels into their truth values. -/
theorem decode_active_all {offset : Offset} (colored : offset.Colored)
    {tracked : List (Bool × Label)} {labels : List Label}
    (same : List.Forall₂ (fun tracked label => label = tracked.2.active offset tracked.1)
      tracked labels) :
    List.zipWith Mask.decode ((tracked.map Prod.snd).map fun zero => ⟨zero.color⟩) labels =
      tracked.map Prod.fst := by
  induction same with
  | nil => rfl
  | cons head _ inductionHypothesis =>
      subst head
      simp only [List.map_cons, List.zipWith_cons_cons, Label.decode_active colored,
        inductionHypothesis]

namespace Tracked

/-- Evaluation follows tracked garbling. -/
def toEvaluation (suite : Suite) {offset : Offset} (colored : offset.Colored) (final : Draft) :
    Coupling (backend suite offset) (EvaluationState.backend suite.pad) where
  wire tracked label := label = tracked.2.active offset tracked.1
  entry left right := left = right
  state state evaluation := state.1.garblerInputs = state.2.inputs ∧
    evaluation.gateCount = state.2.gateCount ∧ evaluation.outputs.toList = state.1.outputs ∧
      evaluation.reader.Ahead offset final state.2.draft state.1.evaluatorInputs
  within state := state.2.draft.Begins final
  within_of_effect effect := (GarblingState.begins_of_effect effect.snd).trans
  garblerInput := by
    rintro ⟨plain, garbling⟩ evaluation ⟨bit, zero⟩ ⟨_, _⟩ ⟨inputs, count, outputs, ahead⟩ performed
      begins
    obtain ⟨one, two⟩ := Backend.pair_garblerInput_eq_ok.mp performed
    obtain ⟨rest, held, rfl⟩ := Plain.garblerInput_eq_ok.mp one
    obtain ⟨_, _, drawn, rfl, rfl⟩ := GarblingState.garblerInput_eq_ok.mp two
    obtain ⟨rfl, rfl⟩ := List.cons.inj (held.symm.trans (inputs.trans drawn))
    obtain ⟨left, labels, ahead⟩ := ahead.addGarblerInput begins
    exact ⟨_, _, EvaluationState.garblerInput_eq_ok.mpr ⟨left, labels, rfl⟩, rfl, rfl, count,
      outputs, ahead⟩
  evaluatorInput := by
    rintro ⟨plain, garbling⟩ evaluation ⟨bit, zero⟩ ⟨_, _⟩ ⟨inputs, count, outputs, ahead⟩ performed
      begins
    obtain ⟨one, two⟩ := Backend.pair_evaluatorInput_eq_ok.mp performed
    obtain ⟨rest, held, rfl⟩ := Plain.evaluatorInput_eq_ok.mp one
    rw [GarblingState.runFrom_evaluatorInput] at two
    cases two
    have held : plain.evaluatorInputs = bit :: rest := held
    simp only [held] at ahead
    obtain ⟨left, labels, ahead⟩ := ahead.addEvaluatorInput begins
    exact ⟨_, _, EvaluationState.evaluatorInput_eq_ok.mpr ⟨left, labels, rfl⟩, rfl, inputs, count,
      outputs, ahead⟩
  and := by
    rintro ⟨leftBit, left⟩ ⟨rightBit, right⟩ _ _ rfl rfl ⟨plain, garbling⟩ evaluation ⟨bit, zero⟩
      ⟨_, _⟩ ⟨inputs, count, outputs, ahead⟩ performed begins
    obtain ⟨one, two⟩ := Backend.pair_and_eq_ok.mp performed
    rw [Plain.runFrom_and] at one
    rw [GarblingState.runFrom_and] at two
    cases one
    cases two
    obtain ⟨rest, gates, ahead⟩ := ahead.addGate begins
    refine ⟨_, _, EvaluationState.and_eq_ok.mpr ⟨_, rest, gates, rfl, rfl⟩, ?_, inputs,
      congrArg (· + 1) count, outputs, ahead⟩
    rw [count]
    exact Gate.evaluate_active suite.pad colored garbling.gateCount left right leftBit rightBit
  xor := by
    rintro ⟨leftBit, left⟩ ⟨rightBit, right⟩ _ _ rfl rfl
    exact (Label.active_xor left right offset leftBit rightBit).symm
  not := by
    rintro ⟨bit, zero⟩ _ rfl
    exact (Label.active_garbleNot zero offset bit).symm
  reveal := by
    rintro tracked labels same ⟨plain, garbling⟩ evaluation value ⟨_, _⟩
      ⟨inputs, count, outputs, ahead⟩ performed begins
    obtain ⟨one, other, two⟩ := Backend.pair_reveal_eq_ok.mp performed
    rw [Plain.runFrom_reveal] at one
    rw [GarblingState.runFrom_reveal] at two
    cases one
    cases two
    obtain ⟨rest, masks, ahead⟩ := ahead.addMasks begins
    refine ⟨_, _, EvaluationState.reveal_eq_ok.mpr
      ⟨_, rest, masks, by simp [same.length_eq], rfl, rfl⟩, ?_, inputs, count, outputs, ahead⟩
    rw [decode_active_all colored same]
    rfl
  output := by
    rintro tracked labels same ⟨plain, garbling⟩ evaluation value ⟨_, _⟩
      ⟨inputs, count, outputs, ahead⟩ performed begins
    obtain ⟨one, two⟩ := Backend.pair_output_eq_ok.mp performed
    rw [Plain.runFrom_output] at one
    rw [GarblingState.runFrom_output] at two
    cases one
    cases two
    obtain ⟨rest, masks, ahead⟩ := ahead.addMasks begins
    refine ⟨(), _, EvaluationState.output_eq_ok.mpr
      ⟨_, rest, masks, by simp [same.length_eq], rfl⟩, trivial, inputs, count, ?_, ahead⟩
    rw [decode_active_all colored same, Array.toList_push, outputs]

end Tracked

namespace BatchReader

/-- A reader with more of everything after what it holds. -/
def append (reader more : BatchReader) : BatchReader where
  gates := reader.gates ++ more.gates
  garblerInputs := reader.garblerInputs ++ more.garblerInputs
  evaluatorInputs := reader.evaluatorInputs ++ more.evaluatorInputs
  masks := reader.masks ++ more.masks

theorem remaining_append (reader more : BatchReader) :
    (reader.append more).remaining = reader.remaining + more.remaining := by
  simp only [remaining, append, List.length_append]
  omega

end BatchReader

namespace EvaluationState

/-- Evaluation with more in the batch follows evaluation with less in it. -/
def withMore (pad : Pad) (more : BatchReader) : Coupling (backend pad) (backend pad) where
  wire label other := other = label
  entry left right := left = right
  state state other := other = { state with reader := state.reader.append more }
  within _ := True
  within_of_effect _ _ := trivial
  garblerInput := by
    rintro before _ label after rfl performed -
    obtain ⟨rest, held, rfl⟩ := garblerInput_eq_ok.mp performed
    exact ⟨label, _, garblerInput_eq_ok.mpr
      ⟨rest ++ more.garblerInputs, by simp only [BatchReader.append, held, List.cons_append],
        rfl⟩, rfl, rfl⟩
  evaluatorInput := by
    rintro before _ label after rfl performed -
    obtain ⟨rest, held, rfl⟩ := evaluatorInput_eq_ok.mp performed
    exact ⟨label, _, evaluatorInput_eq_ok.mpr
      ⟨rest ++ more.evaluatorInputs, by simp only [BatchReader.append, held, List.cons_append],
        rfl⟩, rfl, rfl⟩
  and := by
    rintro left right _ _ rfl rfl before _ label after rfl performed -
    obtain ⟨gate, rest, held, rfl, rfl⟩ := and_eq_ok.mp performed
    exact ⟨_, _, and_eq_ok.mpr
      ⟨gate, rest ++ more.gates, by simp only [BatchReader.append, held, List.cons_append], rfl,
        rfl⟩, rfl, rfl⟩
  xor := by
    rintro left right _ _ rfl rfl
    rfl
  not := by
    rintro label _ rfl
    rfl
  reveal := by
    rintro labels others same before _ value after rfl performed -
    obtain rfl : others = labels := by
      rw [← List.forall₂_eq_eq_eq]
      exact same.flip
    obtain ⟨masks, rest, held, length, rfl, rfl⟩ := reveal_eq_ok.mp performed
    exact ⟨_, _, reveal_eq_ok.mpr
      ⟨masks, rest ++ more.masks, by simp only [BatchReader.append, held, List.append_assoc],
        length, rfl, rfl⟩, rfl, rfl⟩
  output := by
    rintro labels others same before _ value after rfl performed -
    obtain rfl : others = labels := by
      rw [← List.forall₂_eq_eq_eq]
      exact same.flip
    obtain ⟨masks, rest, held, length, rfl⟩ := output_eq_ok.mp performed
    exact ⟨(), _, output_eq_ok.mpr
      ⟨masks, rest ++ more.masks, by simp only [BatchReader.append, held, List.append_assoc],
        length, rfl⟩, trivial, rfl⟩

end EvaluationState

end Garbling
