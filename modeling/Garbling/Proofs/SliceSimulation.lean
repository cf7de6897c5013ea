import Mathlib
import Garbling.Proofs.Accounting
import Garbling.Proofs.Evaluation
import Garbling.Suite.Standard

/-!
# Slice by slice simulation

Between two slices the garbler and the evaluator are in step: they are at the same place, and
each wire of the evaluator carries one of the two labels that the garbler has for it. The
evaluator follows every slice of the garbler on the batch that the garbler makes of it,
whatever the inputs of the evaluator are, and uses the batch up.
-/

namespace Garbling

variable {suite : Suite} {offset : Offset} {program : Program} {budget : Nat}

/-- One of the two labels of the wire with the given zero label. -/
def Label.IsActive (offset : Offset) (zero label : Label) : Prop :=
  ∃ bit, label = zero.active offset bit

/-- A revealed value that is not open is known to the evaluator only. -/
def EvaluatorOnly (garblers evaluators : Option UInt64) : Prop :=
  garblers = none ∧ evaluators.isSome

/-- Both parties have counted the same gates, and the draft of the garbler is empty. -/
def GarblingState.Aligned (state : GarblingState suite) (evaluation : EvaluationState) : Prop :=
  evaluation.gateCount = state.gateCount ∧ state.draft = { firstGate := state.gateCount }

/-- The garbler and the evaluator between two slices. -/
abbrev Machine.InStep (offset : Offset) :
    Machine Label (GarblingState suite) → Machine Label EvaluationState → Prop :=
  Machine.Related (Label.IsActive offset) EvaluatorOnly GarblingState.Aligned

namespace Draft

/-- The reader of the batch that is taken out of a draft, with labels for the evaluator. -/
def reader (draft : Draft) (labels : List Label) : BatchReader where
  gates := draft.gates.toList
  garblerInputs := draft.garblerInputs.toList
  evaluatorInputs := labels
  masks := draft.masks.toList

/-- The labels that choices of the evaluator select. -/
def select (draft : Draft) (offset : Offset) (choices : List Bool) : List Label :=
  draft.evaluatorInputs.toList.zipWith (·.active offset ·) choices

theorem ofBatch_take (draft : Draft) (number next : UInt64) {labels : List Label}
    (length : labels.length = draft.evaluatorInputs.size)
    (small : draft.evaluatorInputs.size < UInt64.size) :
    BatchReader.ofBatch (draft.take number next).1 labels = .ok (draft.reader labels) := by
  have count : labels.length = (UInt64.ofNat draft.evaluatorInputs.size).toNat := by
    rw [length, UInt64.toNat_ofNat_of_lt' small]
  simp [BatchReader.ofBatch, Draft.take, count, reader]

theorem ahead_reader (draft : Draft) (offset : Offset) (first : UInt64) (choices : List Bool) :
    (draft.reader (draft.select offset choices)).Ahead offset draft { firstGate := first }
      choices where
  gates := rfl
  garblerInputs := rfl
  evaluatorInputs := rfl
  masks := rfl

end Draft

namespace Tracked

/-- Tracked garbling between a garbler and an evaluator that are in step. The inputs of the
evaluator are yet to be chosen. -/
theorem exists_between {garbler : Machine Label (GarblingState suite)}
    {evaluator : Machine Label EvaluationState} (inStep : Machine.InStep offset garbler evaluator)
    (colored : offset.Colored) {final : Draft} {choices : List Bool}
    (enough : choices.length = final.evaluatorInputs.size) :
    ∃ tracked, (ofGarbling suite offset final).Related garbler tracked ∧
      (toEvaluation suite colored final).Related tracked
        { evaluator with backend := { evaluator.backend with
            reader := final.reader (final.select offset choices) } } := by
  obtain ⟨processor, memory, gateCount, empty⟩ := inStep
  have between (zero label : Label) (active : zero.IsActive offset label) :
      ∃ tracked : Bool × Label, tracked.2 = zero ∧ label = tracked.2.active offset tracked.1 := by
    obtain ⟨bit, rfl⟩ := active
    exact ⟨(bit, zero), rfl, rfl⟩
  obtain ⟨secrets, secretsLeft, secretsRight⟩ := processor.secrets.split between
  obtain ⟨cells, cellsLeft, cellsRight⟩ := memory.split between
  refine ⟨⟨{ evaluator.processor with secrets }, ⟨cells⟩,
    ⟨garbler.backend.inputs, choices, evaluator.backend.outputs.toList⟩, garbler.backend⟩, ?_, ?_⟩
  · refine ⟨⟨processor.counter, secretsLeft, processor.clears, processor.log, processor.taint⟩,
      cellsLeft, rfl, rfl, ?_⟩
    simp [enough]
  · refine ⟨⟨rfl, secretsRight, rfl, .refl ?_ fun _ _ _ _ => rfl, rfl⟩, cellsRight, rfl,
      gateCount, rfl, ?_⟩
    · rw [← processor.log.opened, ← processor.log.size]
      exact processor.log.bounded
    · simp only [empty]
      exact final.ahead_reader offset _ choices

/-- A garbler and an evaluator with the same tracked garbling between them are in step once the
batch has been taken out of the draft. -/
theorem inStep_of_between {garbler : Machine Label (GarblingState suite)}
    {evaluator : Machine Label EvaluationState} {colored : offset.Colored} {final : Draft}
    {tracked : Machine (Bool × Label) (Plain × GarblingState suite)}
    (left : (ofGarbling suite offset final).Related garbler tracked)
    (right : (toEvaluation suite colored final).Related tracked evaluator) :
    Machine.InStep offset
      { garbler with backend := { garbler.backend with
          draft := { firstGate := garbler.backend.gateCount } } } evaluator := by
  have wires (zero : Label) (pair : Bool × Label) (label : Label) (same : pair.2 = zero)
      (active : label = pair.2.active offset pair.1) : zero.IsActive offset label :=
    ⟨pair.1, same ▸ active⟩
  have entries (garblers known evaluators : Option UInt64)
      (only : garblers = none ∧ known.isSome) (same : known = evaluators) :
      EvaluatorOnly garblers evaluators := same ▸ only
  have count : evaluator.backend.gateCount = garbler.backend.gateCount :=
    right.backend.2.1.trans (congrArg GarblingState.gateCount left.backend.1)
  exact ⟨left.processor.trans right.processor wires entries, left.memory.trans right.memory wires,
    count, rfl⟩

end Tracked

/-- The evaluator follows a slice of the garbler on the batch that the garbler makes of it. -/
theorem Machine.InStep.slice {garbler garblerAfter : Machine Label (GarblingState suite)}
    {evaluator : Machine Label EvaluationState} (inStep : Machine.InStep offset garbler evaluator)
    (colored : offset.Colored) {executed : List Instruction} {ending : Break}
    (slice : Machine.Slice (GarblingState.backend suite offset) program budget garbler executed
      ending garblerAfter) {choices : List Bool}
    (enough : choices.length = garblerAfter.backend.draft.evaluatorInputs.size) :
    ∃ evaluatorAfter,
      Machine.Slice (EvaluationState.backend suite.pad) program budget
        { evaluator with backend := { evaluator.backend with
            reader := garblerAfter.backend.draft.reader
              (garblerAfter.backend.draft.select offset choices) } }
        executed ending evaluatorAfter ∧
      evaluatorAfter.backend.reader.remaining = 0 ∧
      Machine.InStep offset
        { garblerAfter with backend := { garblerAfter.backend with
            draft := { firstGate := garblerAfter.backend.gateCount } } } evaluatorAfter := by
  obtain ⟨tracked, left, right⟩ := Tracked.exists_between inStep colored enough
  obtain ⟨trackedAfter, trackedSlice, left⟩ :=
    (Tracked.ofGarbling suite offset _).slice left slice (.refl _)
  have final : trackedAfter.backend.2.draft = garblerAfter.backend.draft := by
    rw [left.backend.1]
  obtain ⟨evaluatorAfter, evaluatorSlice, right⟩ :=
    (Tracked.toEvaluation suite colored _).slice right trackedSlice (final ▸ .refl _)
  have ahead := right.backend.2.2.2
  rw [final] at ahead
  exact ⟨evaluatorAfter, evaluatorSlice, ahead.remaining, Tracked.inStep_of_between left right⟩

/-- For parties that are in step, whatever slice the garbler executes, and whatever the
choices of the evaluator are: the batch of the slice can be loaded, starts at the next gate,
and makes the evaluator execute a slice that ends the same way and uses the batch up. Then the
parties are in step again. -/
theorem Machine.evaluates_batch {garbler garblerAfter : Machine Label (GarblingState suite)}
    {evaluator : Machine Label EvaluationState} (inStep : Machine.InStep offset garbler evaluator)
    (colored : offset.Colored) {budget : UInt64} {ending : Break}
    (executed : Machine.execute (GarblingState.backend suite offset) program budget.toNat garbler =
      (.ok ending, garblerAfter))
    (number : UInt64) {batch : BatchPair} {zeroLabels : List Label} {draft : Draft}
    (taken : garblerAfter.backend.draft.take number garblerAfter.backend.gateCount =
      (batch, zeroLabels, draft))
    {choices : List Bool} (enough : choices.length = zeroLabels.length) :
    batch.gates.firstGate = evaluator.backend.gateCount ∧
    ∃ reader evaluatorAfter,
      BatchReader.ofBatch batch (zeroLabels.zipWith (·.active offset ·) choices) = .ok reader ∧
      Machine.execute (EvaluationState.backend suite.pad) program budget.toNat
          { evaluator with backend := { evaluator.backend with reader } } =
        (.ok ending, evaluatorAfter) ∧
      evaluatorAfter.backend.reader.finish = .ok () ∧
      Machine.InStep offset
        { garblerAfter with backend := { garblerAfter.backend with draft } } evaluatorAfter := by
  obtain ⟨instructions, slice⟩ := Machine.execute_eq_ok_iff.mp executed
  simp only [Draft.take, Prod.mk.injEq] at taken
  obtain ⟨rfl, rfl, rfl⟩ := taken
  have enough : choices.length = garblerAfter.backend.draft.evaluatorInputs.size := enough
  obtain ⟨count, empty⟩ := inStep.backend
  have small : garblerAfter.backend.draft.evaluatorInputs.size < UInt64.size := by
    have bound := GarblingState.amount_le_of_slice slice
      (by decide : Item.evaluatorInput ≠ .mask)
    have limit := budget.toNat_lt_size
    simp only [empty, Draft.amount, List.size_toArray, List.length_nil, Nat.zero_add] at bound
    omega
  have start : garblerAfter.backend.draft.firstGate = garbler.backend.gateCount := by
    obtain ⟨attempted, _, effects⟩ := slice.effects_le
    rw [GarblingState.firstGate_of_effects effects, empty]
  obtain ⟨evaluatorAfter, evaluatorSlice, nothing, inStep⟩ := inStep.slice colored slice enough
  refine ⟨start.trans count.symm, _, evaluatorAfter,
    garblerAfter.backend.draft.ofBatch_take number garblerAfter.backend.gateCount ?_ small,
    Machine.execute_eq_ok_iff.mpr ⟨instructions, evaluatorSlice⟩, ?_, inStep⟩
  · simp [enough]
  · rw [BatchReader.finish, if_pos nothing]

/-- Both parties learn whether both of them have a set bit. The last instruction has to wait for
that. -/
def Program.conjunction : Program where
  instructions := #[.garblerInput 0, .evaluatorInput 1, .and 2 0 1, .reveal 0 [2],
    .jumpIfZero 0 5]
  memorySize := 0
  faultless := by decide

/-- A garbler with a set bit at the start of the conjunction. -/
def Garbler.ofConjunction : Machine Label (GarblingState .standard) :=
  .start Program.conjunction { generator := .ofSeed [], inputs := [true] }

/-- The first slice of the conjunction ends where the garbler has to wait. An evaluator with a
set bit executes it as well. -/
theorem Machine.evaluates_conjunction :
    let offset := Offset.colored 6
    let evaluator : Machine Label EvaluationState := .start Program.conjunction {}
    let after := (Machine.execute (GarblingState.backend .standard offset) Program.conjunction
      (65536 : UInt64).toNat Garbler.ofConjunction).2
    let taken := after.backend.draft.take 0 after.backend.gateCount
    Machine.InStep offset Garbler.ofConjunction evaluator ∧ offset.Colored ∧
      Machine.execute (GarblingState.backend .standard offset) Program.conjunction
        (65536 : UInt64).toNat Garbler.ofConjunction = (.ok .restart, after) ∧
      [true].length = taken.2.1.length ∧ taken.1.gates.firstGate = evaluator.backend.gateCount ∧
      ∃ reader evaluatorAfter,
        BatchReader.ofBatch taken.1 (taken.2.1.zipWith (·.active offset ·) [true]) = .ok reader ∧
        Machine.execute (EvaluationState.backend Suite.standard.pad) Program.conjunction
            (65536 : UInt64).toNat
            { evaluator with backend := { evaluator.backend with reader } } =
          (.ok .restart, evaluatorAfter) ∧
        evaluatorAfter.backend.reader.finish = .ok () ∧
        Machine.InStep offset
          { after with backend := { after.backend with draft := taken.2.2 } } evaluatorAfter := by
  intro offset evaluator after taken
  have inStep : Machine.InStep offset Garbler.ofConjunction evaluator := .start _ ⟨rfl, rfl⟩
  have colored : offset.Colored := Offset.colored_colored _
  have executed : Machine.execute (GarblingState.backend .standard offset) Program.conjunction
      (65536 : UInt64).toNat Garbler.ofConjunction = (.ok .restart, after) := Prod.ext rfl rfl
  have enough : [true].length = taken.2.1.length := rfl
  exact ⟨inStep, colored, executed, enough,
    Machine.evaluates_batch inStep colored executed 0 rfl enough⟩

end Garbling
