import Mathlib
import Garbling.Machine.Plain
import Garbling.Proofs.HalfGate
import Garbling.Proofs.Slice
import Garbling.Role.Evaluator
import Garbling.Role.Garbler

/-!
# What the operations of the backends do

For each operation of each of the three backends, when it succeeds and what comes of it.
Garbling only ever adds to the draft, and evaluating only ever takes out of the batch.
-/

namespace Garbling

namespace Plain

variable {known : Bool} {before after : Plain} {bit : Bool}

theorem garblerInput_eq_ok :
    (backend known).garblerInput.runFrom before = (.ok bit, after) ↔
      ∃ rest, before.garblerInputs = bit :: rest ∧
        after = { before with garblerInputs := rest } := by
  simp only [backend, Action.runFrom_get_bind]
  cases held : before.garblerInputs with
  | nil => simp
  | cons head rest =>
      simp only [Action.runFrom_bind, Action.runFrom_modify, Action.runFrom_pure, Prod.mk.injEq,
        Except.ok.injEq, List.cons.injEq]
      constructor
      · rintro ⟨rfl, rfl⟩
        exact ⟨rest, ⟨rfl, rfl⟩, rfl⟩
      · rintro ⟨_, ⟨rfl, rfl⟩, rfl⟩
        exact ⟨rfl, rfl⟩

theorem evaluatorInput_eq_ok :
    (backend known).evaluatorInput.runFrom before = (.ok bit, after) ↔
      ∃ rest, before.evaluatorInputs = bit :: rest ∧
        after = { before with evaluatorInputs := rest } := by
  simp only [backend, Action.runFrom_get_bind]
  cases held : before.evaluatorInputs with
  | nil => simp
  | cons head rest =>
      simp only [Action.runFrom_bind, Action.runFrom_modify, Action.runFrom_pure, Prod.mk.injEq,
        Except.ok.injEq, List.cons.injEq]
      constructor
      · rintro ⟨rfl, rfl⟩
        exact ⟨rest, ⟨rfl, rfl⟩, rfl⟩
      · rintro ⟨_, ⟨rfl, rfl⟩, rfl⟩
        exact ⟨rfl, rfl⟩

@[simp] theorem runFrom_and (known left right : Bool) :
    ((backend known).and left right).runFrom before = (.ok (left && right), before) := rfl

@[simp] theorem runFrom_reveal (bits : List Bool) :
    ((backend known).reveal bits).runFrom before =
      (.ok (if known then some (Bits.value bits) else none), before) := rfl

@[simp] theorem runFrom_output (bits : List Bool) :
    ((backend known).output bits).runFrom before =
      (.ok (), { before with outputs := before.outputs ++ [Bits.value bits] }) := rfl

end Plain

namespace Draft

/-- Adds the masks of some wires. -/
def addMasks (draft : Draft) (zeroLabels : List Label) : Draft :=
  { draft with masks := draft.masks ++ (zeroLabels.map fun zero => (⟨zero.color⟩ : Mask)).toArray }

theorem foldl_addMask (draft : Draft) (zeroLabels : List Label) :
    zeroLabels.foldl (fun draft zero => draft.addMask ⟨zero.color⟩) draft =
      draft.addMasks zeroLabels := by
  induction zeroLabels generalizing draft with
  | nil => simp [addMasks]
  | cons zero rest inductionHypothesis =>
      rw [List.foldl_cons, inductionHypothesis]
      simp [addMasks, addMask]

/-- The contents of the first draft are the beginning of the contents of the second one. -/
structure Begins (draft longer : Draft) : Prop where
  gates : draft.gates.toList <+: longer.gates.toList
  garblerInputs : draft.garblerInputs.toList <+: longer.garblerInputs.toList
  evaluatorInputs : draft.evaluatorInputs.toList <+: longer.evaluatorInputs.toList
  masks : draft.masks.toList <+: longer.masks.toList

namespace Begins

variable {draft middle longer : Draft}

theorem refl (draft : Draft) : Begins draft draft :=
  ⟨List.prefix_rfl, List.prefix_rfl, List.prefix_rfl, List.prefix_rfl⟩

theorem trans (first : Begins draft middle) (second : Begins middle longer) :
    Begins draft longer :=
  ⟨first.gates.trans second.gates, first.garblerInputs.trans second.garblerInputs,
    first.evaluatorInputs.trans second.evaluatorInputs, first.masks.trans second.masks⟩

theorem addGate (draft : Draft) (gate : Gate) : Begins draft (draft.addGate gate) :=
  { refl draft with gates := by simp [Draft.addGate] }

theorem addGarblerInput (draft : Draft) (label : Label) :
    Begins draft (draft.addGarblerInput label) :=
  { refl draft with garblerInputs := by simp [Draft.addGarblerInput] }

theorem addEvaluatorInput (draft : Draft) (zero : Label) :
    Begins draft (draft.addEvaluatorInput zero) :=
  { refl draft with evaluatorInputs := by simp [Draft.addEvaluatorInput] }

theorem addMasks (draft : Draft) (zeroLabels : List Label) :
    Begins draft (draft.addMasks zeroLabels) :=
  { refl draft with masks := by simp [Draft.addMasks] }

end Begins

end Draft

namespace GarblingState

variable {suite : Suite} {offset : Offset} {before after : GarblingState suite} {zero : Label}

/-- The state after a label has been drawn. -/
def drawn (state : GarblingState suite) : GarblingState suite :=
  { state with generator := (suite.label state.generator).2 }

/-- The label that is drawn next. -/
def fresh (state : GarblingState suite) : Label := (suite.label state.generator).1

theorem garblerInput_eq_ok :
    (backend suite offset).garblerInput.runFrom before = (.ok zero, after) ↔
      ∃ bit rest, before.inputs = bit :: rest ∧ zero = before.fresh ∧
        after = { before.drawn with
          inputs := rest
          draft := before.draft.addGarblerInput (zero.active offset bit) } := by
  simp only [backend, Action.runFrom_get_bind]
  cases held : before.inputs with
  | nil => simp
  | cons head rest =>
      simp only [Action.runFrom_bind, Action.runFrom_modify, drawLabel, Action.runFrom_modifyGet,
        edit, Action.runFrom_pure, Prod.mk.injEq, Except.ok.injEq, List.cons.injEq]
      constructor
      · rintro ⟨rfl, rfl⟩
        exact ⟨head, rest, ⟨rfl, rfl⟩, rfl, rfl⟩
      · rintro ⟨bit, _, ⟨rfl, rfl⟩, rfl, rfl⟩
        exact ⟨rfl, rfl⟩

@[simp] theorem runFrom_evaluatorInput :
    (backend suite offset).evaluatorInput.runFrom before =
      (.ok before.fresh,
        { before.drawn with draft := before.draft.addEvaluatorInput before.fresh }) := rfl

@[simp] theorem runFrom_and (left right : Label) :
    ((backend suite offset).and left right).runFrom before =
      (.ok (Gate.garble suite.pad offset before.gateCount left right).2,
        { before with
          gateCount := before.gateCount + 1
          draft := before.draft.addGate
            (Gate.garble suite.pad offset before.gateCount left right).1 }) := rfl

@[simp] theorem runFrom_addMasks (zeroLabels : List Label) :
    (addMasks zeroLabels).runFrom before =
      (.ok (), { before with draft := before.draft.addMasks zeroLabels }) := by
  simp only [addMasks, edit, Action.runFrom_modify, Draft.foldl_addMask]

@[simp] theorem runFrom_reveal (zeroLabels : List Label) :
    ((backend suite offset).reveal zeroLabels).runFrom before =
      (.ok none, { before with draft := before.draft.addMasks zeroLabels }) := by
  simp only [backend, Action.runFrom_bind, runFrom_addMasks, Action.runFrom_pure]

@[simp] theorem runFrom_output (zeroLabels : List Label) :
    ((backend suite offset).output zeroLabels).runFrom before =
      (.ok (), { before with draft := before.draft.addMasks zeroLabels }) := by
  simp [backend]

/-- Whatever garbling does, it only adds to the draft. -/
theorem begins_of_effect {instruction : Instruction}
    (effect : (backend suite offset).Effect instruction before after) :
    before.draft.Begins after.draft := by
  cases instruction with
  | garblerInput dst =>
      obtain ⟨zero, performed⟩ := effect
      obtain ⟨bit, rest, _, _, rfl⟩ := garblerInput_eq_ok.mp performed
      exact .addGarblerInput ..
  | evaluatorInput dst =>
      obtain ⟨zero, performed⟩ := effect
      rw [runFrom_evaluatorInput] at performed
      cases performed
      exact .addEvaluatorInput ..
  | and dst lhs rhs =>
      obtain ⟨left, right, zero, performed⟩ := effect
      rw [runFrom_and] at performed
      cases performed
      exact .addGate ..
  | reveal dst src =>
      obtain ⟨zeroLabels, value, _, performed⟩ := effect
      rw [runFrom_reveal] at performed
      cases performed
      exact .addMasks ..
  | output src =>
      obtain ⟨zeroLabels, _, _, performed⟩ := effect
      rw [runFrom_output] at performed
      cases performed
      exact .addMasks ..
  | xor | not | constant | store | load | jumpIfZero | jump =>
      cases effect
      exact .refl _

end GarblingState

namespace EvaluationState

variable {pad : Pad} {before after : EvaluationState}

theorem next_eq_ok {item : Type} {take : BatchReader → Except Violation (item × BatchReader)}
    {value : item} :
    (next take).runFrom before = (.ok value, after) ↔
      ∃ reader, take before.reader = .ok (value, reader) ∧ after = { before with reader } := by
  simp only [next, Action.runFrom_get_bind]
  cases outcome : take before.reader with
  | error breach => simp
  | ok found =>
      obtain ⟨head, reader⟩ := found
      simp only [Action.runFrom_bind, Action.runFrom_modify, Action.runFrom_pure, Prod.mk.injEq,
        Except.ok.injEq]
      constructor
      · rintro ⟨rfl, rfl⟩
        exact ⟨reader, ⟨rfl, rfl⟩, rfl⟩
      · rintro ⟨_, ⟨rfl, rfl⟩, rfl⟩
        exact ⟨rfl, rfl⟩

theorem garblerInput_eq_ok {label : Label} :
    (backend pad).garblerInput.runFrom before = (.ok label, after) ↔
      ∃ rest, before.reader.garblerInputs = label :: rest ∧
        after = { before with reader := { before.reader with garblerInputs := rest } } := by
  simp only [backend, next_eq_ok, BatchReader.nextGarblerInput]
  cases before.reader.garblerInputs with
  | nil => simp
  | cons head rest => simp [eq_comm]

theorem evaluatorInput_eq_ok {label : Label} :
    (backend pad).evaluatorInput.runFrom before = (.ok label, after) ↔
      ∃ rest, before.reader.evaluatorInputs = label :: rest ∧
        after = { before with reader := { before.reader with evaluatorInputs := rest } } := by
  simp only [backend, next_eq_ok, BatchReader.nextEvaluatorInput]
  cases before.reader.evaluatorInputs with
  | nil => simp
  | cons head rest => simp [eq_comm]

theorem and_eq_ok {left right label : Label} :
    ((backend pad).and left right).runFrom before = (.ok label, after) ↔
      ∃ gate rest, before.reader.gates = gate :: rest ∧
        label = gate.evaluate pad before.gateCount left right ∧
          after = { before with
            reader := { before.reader with gates := rest }
            gateCount := before.gateCount + 1 } := by
  simp only [backend, Action.runFrom_bind_eq_ok, next_eq_ok, BatchReader.nextGate,
    Action.runFrom_get_bind, Action.runFrom_modify_eq_ok, Action.runFrom_pure_eq_ok]
  cases before.reader.gates with
  | nil => simp
  | cons head rest =>
      simp only [Except.ok.injEq, Prod.mk.injEq, List.cons.injEq]
      constructor
      · rintro ⟨gate, _, ⟨reader, ⟨rfl, rfl⟩, rfl⟩, _, _, rfl, rfl, rfl⟩
        exact ⟨head, rest, ⟨rfl, rfl⟩, rfl, rfl⟩
      · rintro ⟨gate, _, ⟨rfl, rfl⟩, rfl, rfl⟩
        exact ⟨head, _, ⟨_, ⟨rfl, rfl⟩, rfl⟩, (), _, rfl, rfl, rfl⟩

/-- Wires are decoded by as many masks, the first ones that are left. -/
theorem decodeAll_eq_ok {labels : List Label} {bits : List Bool} :
    (decodeAll labels).runFrom before = (.ok bits, after) ↔
      ∃ masks rest, before.reader.masks = masks ++ rest ∧ masks.length = labels.length ∧
        bits = masks.zipWith Mask.decode labels ∧
          after = { before with reader := { before.reader with masks := rest } } := by
  induction labels generalizing before bits after with
  | nil =>
      simp only [decodeAll, Action.runFrom_pure_eq_ok]
      constructor
      · rintro ⟨rfl, rfl⟩
        exact ⟨[], _, rfl, rfl, rfl, rfl⟩
      · rintro ⟨masks, rest, split, length, rfl, rfl⟩
        obtain rfl := List.length_eq_zero_iff.mp length
        rw [List.nil_append] at split
        rw [← split]
        exact ⟨rfl, rfl⟩
  | cons label labels inductionHypothesis =>
      simp only [decodeAll, Action.runFrom_bind_eq_ok, next_eq_ok, BatchReader.nextMask,
        inductionHypothesis, Action.runFrom_pure_eq_ok]
      constructor
      · rintro ⟨mask, _, ⟨reader, taken, rfl⟩, _, _, ⟨masks, rest, split, length, rfl, rfl⟩, rfl,
          rfl⟩
        cases held : before.reader.masks with
        | nil => simp [held] at taken
        | cons head tail =>
            simp only [held, Except.ok.injEq, Prod.mk.injEq] at taken
            obtain ⟨rfl, rfl⟩ := taken
            refine ⟨head :: masks, rest, ?_, by simp [length], rfl, rfl⟩
            exact congrArg (head :: ·) split
      · rintro ⟨masks, rest, split, length, rfl, rfl⟩
        cases masks with
        | nil => simp at length
        | cons mask masks =>
            refine ⟨mask, { before with reader := { before.reader with masks := masks ++ rest } },
              ⟨_, ?_, rfl⟩, _, _, ⟨masks, rest, rfl, by simpa using length, rfl, rfl⟩, rfl, rfl⟩
            simp only [split, List.cons_append]

theorem reveal_eq_ok {labels : List Label} {value : Option UInt64} :
    ((backend pad).reveal labels).runFrom before = (.ok value, after) ↔
      ∃ masks rest, before.reader.masks = masks ++ rest ∧ masks.length = labels.length ∧
        value = some (Bits.value (masks.zipWith Mask.decode labels)) ∧
          after = { before with reader := { before.reader with masks := rest } } := by
  simp only [backend, decode, Action.runFrom_map_eq_ok, decodeAll_eq_ok]
  constructor
  · rintro ⟨_, ⟨_, ⟨masks, rest, split, length, rfl, rfl⟩, rfl⟩, rfl⟩
    exact ⟨masks, rest, split, length, rfl, rfl⟩
  · rintro ⟨masks, rest, split, length, rfl, rfl⟩
    exact ⟨_, ⟨_, ⟨masks, rest, split, length, rfl, rfl⟩, rfl⟩, rfl⟩

theorem output_eq_ok {labels : List Label} {result : Unit} :
    ((backend pad).output labels).runFrom before = (.ok result, after) ↔
      ∃ masks rest, before.reader.masks = masks ++ rest ∧ masks.length = labels.length ∧
        after = { before with
          reader := { before.reader with masks := rest }
          outputs := before.outputs.push (Bits.value (masks.zipWith Mask.decode labels)) } := by
  simp only [backend, decode, Action.runFrom_bind_eq_ok, Action.runFrom_map_eq_ok,
    decodeAll_eq_ok, Action.runFrom_modify_eq_ok]
  constructor
  · rintro ⟨_, _, ⟨_, ⟨masks, rest, split, length, rfl, rfl⟩, rfl⟩, rfl⟩
    exact ⟨masks, rest, split, length, rfl⟩
  · rintro ⟨masks, rest, split, length, rfl⟩
    exact ⟨_, _, ⟨_, ⟨masks, rest, split, length, rfl, rfl⟩, rfl⟩, rfl⟩

end EvaluationState

end Garbling
