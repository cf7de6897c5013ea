import Mathlib
import Garbling.Proofs.Openings
import Garbling.Proofs.SliceSimulation
import Garbling.Proofs.Waiting

/-!
# Both parties slice by slice

A duet is what the machines of both parties go through from a point between two slices to the
end of the program, whatever messages carry the batches, the labels and the openings. Parties
that are in step stay so from slice to slice. If the reference interpreter finishes a program
then there is a duet, and it comes to the values of the reference interpreter.
-/

namespace Garbling

variable {suite : Suite} {offset : Offset} {program : Program} {budget : Nat}

namespace Machine

/-- The garbler's machine once the batch of a slice has been taken out. -/
def emptied (machine : Machine Label (GarblingState suite)) :
    Machine Label (GarblingState suite) :=
  { machine with backend := { machine.backend with
      draft := { firstGate := machine.backend.gateCount } } }

/-- The evaluator's machine with a batch. -/
def loaded (machine : Machine Label EvaluationState) (reader : BatchReader) :
    Machine Label EvaluationState :=
  { machine with backend := { machine.backend with reader } }

/-- The machine back at the instruction before the current one, with another log. -/
def resumed {wire state : Type} (machine : Machine wire state) (log : RevealLog) :
    Machine wire state :=
  { machine with processor := { machine.processor.rewind with log } }

end Machine

/-- A slice that both parties execute, the evaluator on the batch of the garbler and on the
labels of its inputs. All values revealed so far can be opened after it. -/
structure Portion (suite : Suite) (offset : Offset) (program : Program) (budget : Nat)
    (garbler : Machine Label (GarblingState suite)) (evaluator : Machine Label EvaluationState)
    (inputs : List Bool) (ending : Break) (garblerAfter : Machine Label (GarblingState suite))
    (evaluatorAfter : Machine Label EvaluationState) : Prop where
  garbles : Machine.execute (GarblingState.backend suite offset) program budget garbler =
    (.ok ending, garblerAfter)
  first : garblerAfter.backend.draft.firstGate = evaluator.backend.gateCount
  enough : garblerAfter.backend.draft.evaluatorInputs.size ≤ inputs.length
  short : ∀ item, garblerAfter.backend.draft.amount item < UInt64.size
  evaluates : Machine.execute (EvaluationState.backend suite.pad) program budget
      (evaluator.loaded (garblerAfter.backend.draft.reader
        (garblerAfter.backend.draft.select offset inputs))) = (.ok ending, evaluatorAfter)
  finished : evaluatorAfter.backend.reader.finish = .ok ()
  opens : garblerAfter.processor.log.applyOpenings evaluatorAfter.processor.log.takeOpenings.1 =
    .ok evaluatorAfter.processor.log.opening

/-- What both parties go through to the end of the program: the draft and the ending of each
slice, the values revealed to both, and those revealed to the evaluator only. -/
inductive Duet (suite : Suite) (offset : Offset) (program : Program) (budget : Nat) :
    Machine Label (GarblingState suite) → Machine Label EvaluationState → (inputs : List Bool) →
      List (Draft × Break) → (revealed outputs : List UInt64) → Prop
  | done {garbler garblerAfter : Machine Label (GarblingState suite)}
      {evaluator evaluatorAfter : Machine Label EvaluationState} {inputs : List Bool}
      (portion : Portion suite offset program budget garbler evaluator inputs .done garblerAfter
        evaluatorAfter)
      (few : evaluatorAfter.processor.log.takeOpenings.1.length < UInt64.size) :
      Duet suite offset program budget garbler evaluator inputs
        [(garblerAfter.backend.draft, .done)] evaluatorAfter.processor.log.opening.revealed
        evaluatorAfter.backend.outputs.toList
  | time {garbler garblerAfter : Machine Label (GarblingState suite)}
      {evaluator evaluatorAfter : Machine Label EvaluationState} {inputs : List Bool}
      {drafts : List (Draft × Break)} {revealed outputs : List UInt64}
      (portion : Portion suite offset program budget garbler evaluator inputs .time garblerAfter
        evaluatorAfter)
      (rest : Duet suite offset program budget garblerAfter.emptied evaluatorAfter
        (inputs.drop garblerAfter.backend.draft.evaluatorInputs.size) drafts revealed outputs) :
      Duet suite offset program budget garbler evaluator inputs
        ((garblerAfter.backend.draft, .time) :: drafts) revealed outputs
  | restart {garbler garblerAfter : Machine Label (GarblingState suite)}
      {evaluator evaluatorAfter : Machine Label EvaluationState} {inputs : List Bool}
      {drafts : List (Draft × Break)} {revealed outputs : List UInt64}
      (portion : Portion suite offset program budget garbler evaluator inputs .restart garblerAfter
        evaluatorAfter)
      (few : evaluatorAfter.processor.log.takeOpenings.1.length < UInt64.size)
      (rest : Duet suite offset program budget
        (garblerAfter.emptied.resumed evaluatorAfter.processor.log.opening)
        (evaluatorAfter.resumed evaluatorAfter.processor.log.opening)
        (inputs.drop garblerAfter.backend.draft.evaluatorInputs.size) drafts revealed outputs) :
      Duet suite offset program budget garbler evaluator inputs
        ((garblerAfter.backend.draft, .restart) :: drafts) revealed outputs

/-- The parties between two slices, together with a plain execution of the same program. The
tracked garbling ties all three together. -/
structure Trio (suite : Suite) (offset : Offset) (plain : Machine Bool Plain)
    (tracked : Machine (Bool × Label) (Plain × GarblingState suite))
    (garbler : Machine Label (GarblingState suite)) (evaluator : Machine Label EvaluationState) :
    Prop where
  plain : (Tracked.ofPlain suite offset).Related plain tracked
  garbling : (Tracked.toGarbling suite offset).Related tracked garbler
  evaluation : Machine.Related (fun pair label => label = pair.2.active offset pair.1) Eq
    (fun state evaluation => evaluation.gateCount = state.2.gateCount ∧
      evaluation.outputs.toList = state.1.outputs) tracked evaluator
  empty : garbler.backend.draft = { firstGate := garbler.backend.gateCount }

namespace Trio

variable {plain plainAfter : Machine Bool Plain}
  {tracked : Machine (Bool × Label) (Plain × GarblingState suite)}
  {garbler : Machine Label (GarblingState suite)} {evaluator : Machine Label EvaluationState}

/-- The start of a program. -/
theorem start (program : Program) (generator : suite.Generator)
    (garblerInputs evaluatorInputs : List Bool) :
    Trio suite offset (.start program { garblerInputs, evaluatorInputs })
      (.start program ({ garblerInputs, evaluatorInputs }, { generator, inputs := garblerInputs }))
      (.start program { generator, inputs := garblerInputs }) (.start program {}) where
  plain := .start program ⟨rfl, rfl⟩
  garbling := .start program rfl
  evaluation := .start program ⟨rfl, rfl⟩
  empty := rfl

/-- The log of the plain execution is that of the evaluator. -/
theorem log_eq (trio : Trio suite offset plain tracked garbler evaluator) :
    plain.processor.log = evaluator.processor.log :=
  trio.plain.processor.log.eq.trans trio.evaluation.processor.log.eq

theorem outputs_eq (trio : Trio suite offset plain tracked garbler evaluator) :
    evaluator.backend.outputs.toList = plain.backend.outputs := by
  rw [trio.evaluation.backend.2, trio.plain.backend.1]

/-- The evaluator opens no more values than were revealed. -/
theorem few_openings (trio : Trio suite offset plain tracked garbler evaluator)
    (few : plain.processor.log.values.size < UInt64.size) :
    evaluator.processor.log.takeOpenings.1.length < UInt64.size := by
  have shorter : evaluator.processor.log.takeOpenings.1.length ≤
      evaluator.processor.log.values.size := by
    refine (List.length_filterMap_le _ _).trans ?_
    rw [List.length_drop, Array.length_toList]
    omega
  rw [← trio.log_eq] at shorter ⊢
  exact shorter.trans_lt few

/-- The garbler can fill in what the evaluator opens. -/
theorem opens (trio : Trio suite offset plain tracked garbler evaluator)
    (known : plain.processor.log.Known) :
    garbler.processor.log.applyOpenings evaluator.processor.log.takeOpenings.1 =
      .ok evaluator.processor.log.opening := by
  have same := trio.evaluation.processor.log.eq
  have plainly := trio.plain.processor.log.eq
  have success := trio.garbling.processor.log.applyOpenings (plainly ▸ known)
  rwa [same] at success

/-- All parties go back to the instruction before the current one and open all values. -/
theorem resumed (trio : Trio suite offset plain tracked garbler evaluator) :
    Trio suite offset (plain.resumed plain.processor.log.opening)
      (tracked.resumed tracked.processor.log.opening)
      (garbler.resumed evaluator.processor.log.opening)
      (evaluator.resumed evaluator.processor.log.opening) where
  plain :=
    { trio.plain with processor := trio.plain.processor.rewind.opened }
  garbling := by
    have same := trio.evaluation.processor.log.eq
    rw [← same]
    exact { trio.garbling with
      processor := { trio.garbling.processor.rewind with log := .opening _ } }
  evaluation :=
    { trio.evaluation with processor := trio.evaluation.processor.rewind.opened }
  empty := trio.empty

/-- Both parties follow a slice of the plain execution. -/
theorem portion (trio : Trio suite offset plain tracked garbler evaluator)
    (colored : offset.Colored) {executed : List Instruction} {ending : Break}
    (slice : Machine.Slice (Plain.backend true) program budget plain executed ending plainAfter)
    (lowered : plain.processor.taint = {}) (small : budget < UInt64.size)
    (masks : Instruction.allNeed executed .mask < UInt64.size)
    (known : plainAfter.processor.log.Known) :
    ∃ trackedAfter garblerAfter evaluatorAfter,
      Portion suite offset program budget garbler evaluator plain.backend.evaluatorInputs ending
        garblerAfter evaluatorAfter ∧
      Trio suite offset plainAfter trackedAfter garblerAfter.emptied evaluatorAfter ∧
      plainAfter.backend.evaluatorInputs = plain.backend.evaluatorInputs.drop
        garblerAfter.backend.draft.evaluatorInputs.size := by
  obtain ⟨trackedAfter, trackedSlice, plainRelated⟩ :=
    (Tracked.ofPlain suite offset).slice trio.plain slice trivial
  obtain ⟨garblerAfter, garblerSlice, garblingRelated⟩ :=
    (Tracked.toGarbling suite offset).slice trio.garbling trackedSlice trivial
  have inputs : tracked.backend.1 = plain.backend := trio.plain.backend.1
  have garbling : tracked.backend.2 = garbler.backend := trio.garbling.backend
  have final : trackedAfter.backend.2 = garblerAfter.backend := garblingRelated.backend
  have right : (Tracked.toEvaluation suite colored garblerAfter.backend.draft).Related tracked
      (evaluator.loaded (garblerAfter.backend.draft.reader
        (garblerAfter.backend.draft.select offset plain.backend.evaluatorInputs))) := by
    refine ⟨trio.evaluation.processor, trio.evaluation.memory, ?_, trio.evaluation.backend.1,
      trio.evaluation.backend.2, ?_⟩
    · rw [trio.plain.backend.2, inputs]
    · rw [garbling, trio.empty, inputs]
      exact garblerAfter.backend.draft.ahead_reader offset _ _
  obtain ⟨evaluatorAfter, evaluatorSlice, evaluationRelated⟩ :=
    (Tracked.toEvaluation suite colored _).slice right trackedSlice (final ▸ .refl _)
  obtain ⟨used, split, length⟩ := Plain.evaluatorInputs_of_effects (slice.effects lowered)
  have garblerLowered : garbler.processor.taint = {} := by
    rw [← trio.garbling.processor.taint, ← trio.plain.processor.taint, lowered]
  have effects := garblerSlice.effects garblerLowered
  have amounts (item : Item) : garblerAfter.backend.draft.amount item =
      Instruction.allNeed executed item := by
    rw [GarblingState.amount_of_effects effects, trio.empty, Draft.amount_empty, Nat.zero_add]
  have count : garblerAfter.backend.draft.evaluatorInputs.size = used.length := by
    rw [length]
    exact amounts .evaluatorInput
  have ahead := evaluationRelated.backend.2.2.2
  rw [final] at ahead
  have inputsLeft : garblerAfter.backend.inputs = plainAfter.backend.garblerInputs := by
    rw [← final]
    exact plainRelated.backend.2
  have counted : evaluatorAfter.backend.gateCount = garblerAfter.backend.gateCount := by
    rw [← final]
    exact evaluationRelated.backend.2.1
  have after : Trio suite offset plainAfter
      { trackedAfter with backend := (trackedAfter.backend.1, garblerAfter.emptied.backend) }
      garblerAfter.emptied evaluatorAfter :=
    { plain :=
        { plainRelated with backend := ⟨plainRelated.backend.1, inputsLeft⟩ }
      garbling := { garblingRelated with backend := rfl }
      evaluation :=
        { evaluationRelated with backend := ⟨counted, evaluationRelated.backend.2.2.1⟩ }
      empty := rfl }
  refine ⟨_, garblerAfter, evaluatorAfter, ?_, after, ?_⟩
  · exact {
      garbles := Machine.execute_eq_ok_iff.mpr ⟨executed, garblerSlice⟩
      first := by
        rw [GarblingState.firstGate_of_effects effects, trio.empty, ← garbling]
        exact trio.evaluation.backend.1.symm
      enough := by
        rw [count, split, List.length_append]
        omega
      short := fun item => by
        rw [amounts]
        exact Instruction.allNeed_lt_size (slice.length_le.trans_lt small) masks item
      evaluates := Machine.execute_eq_ok_iff.mpr ⟨executed, evaluatorSlice⟩
      finished := by rw [BatchReader.finish, if_pos ahead.remaining]
      opens := after.opens known }
  · rw [count, split, List.drop_left]

/-- If the reference interpreter finishes the program then both parties come to its end, and to
the values that the interpreter comes to. The drafts need as many inputs of the evaluator as the
interpreter takes. No slice asks for a restart if no instruction needs a value that was revealed
before it. -/
theorem duet (trio : Trio suite offset plain tracked garbler evaluator)
    (colored : offset.Colored) (sound : plain.processor.Sound) {path : List Instruction}
    {final : Reference} (finishes : Reference.Finishes program plain.reference path final)
    (positive : 0 < budget) (small : budget < UInt64.size)
    (masks : (path.map Instruction.width).sum < UInt64.size)
    (few : final.revealed.length < UInt64.size) :
    ∃ drafts, Duet suite offset program budget garbler evaluator plain.backend.evaluatorInputs
        drafts final.revealed final.outputs ∧
      final.evaluatorInputs = plain.backend.evaluatorInputs.drop
        (drafts.map fun draft => draft.1.evaluatorInputs.size).sum ∧
      ∀ registers, plain.processor.Pending registers → Instruction.NeverWaits registers path →
        ∀ draft ∈ drafts, draft.2 ≠ .restart := by
  -- The number of instructions that are left decreases, or else a restart loses its chance.
  induction measure : 2 * path.length + plain.processor.waiting using Nat.strong_induction_on
    generalizing plain tracked garbler evaluator path with
  | _ measure inductionHypothesis =>
      subst measure
      obtain ⟨executed, ending, plainAfter, slice, remains, full⟩ :=
        Machine.slice_of_reference sound finishes budget
      have chosen (rest : List Instruction) (split : path = executed ++ rest) :
          Instruction.allNeed executed .mask < UInt64.size := by
        rw [Instruction.allNeed_mask]
        rw [split, List.map_append, List.sum_append] at masks
        omega
      have room {reference : Reference} {rest : List Instruction} {log : RevealLog}
          (finishes : Reference.Finishes program reference rest final)
          (count : reference.revealed.length = log.values.size) : log.values.size < UInt64.size := by
        have shorter := finishes.executes.length_revealed_le
        omega
      cases ending with
      | done =>
          obtain ⟨soundAfter, rfl, rfl⟩ := remains
          obtain ⟨trackedAfter, garblerAfter, evaluatorAfter, portion, after, left⟩ :=
            trio.portion colored slice sound.lowered small (chosen [] (by simp)) soundAfter.log_known
          have taken : plainAfter.reference.evaluatorInputs = plain.backend.evaluatorInputs.drop
              [garblerAfter.backend.draft.evaluatorInputs.size].sum := by
            rw [List.sum_singleton]
            exact left
          refine ⟨[(garblerAfter.backend.draft, .done)], ?_, taken, by simp⟩
          have revealed : plainAfter.reference.revealed =
              evaluatorAfter.processor.log.opening.revealed := by
            rw [RevealLog.revealed_opening, ← after.log_eq]
            rfl
          have outputs : plainAfter.reference.outputs = evaluatorAfter.backend.outputs.toList :=
            after.outputs_eq.symm
          rw [revealed, outputs]
          refine .done portion (after.few_openings ?_)
          rw [← soundAfter.length_known]
          exact few
      | time =>
          obtain ⟨soundAfter, rest, rfl, finishesAfter⟩ := remains
          obtain ⟨trackedAfter, garblerAfter, evaluatorAfter, portion, after, left⟩ :=
            trio.portion colored slice sound.lowered small (chosen rest rfl) soundAfter.log_known
          have waiting := plainAfter.processor.waiting_le_one
          have length := full rfl
          obtain ⟨drafts, duet, taken, others⟩ := inductionHypothesis _
            (by rw [List.length_append]; omega) after soundAfter finishesAfter
            (by rw [List.map_append, List.sum_append] at masks; omega) rfl
          rw [left] at duet
          have total := taken.trans (congrArg (List.drop _) left)
          rw [List.drop_drop] at total
          refine ⟨_, .time portion duet, total, fun registers pending never => ?_⟩
          exact List.forall_mem_cons.mpr ⟨nofun,
            others _ (slice.pending sound.lowered pending).1 never.of_append⟩
      | restart =>
          have waits (registers : Finset Register) (pending : plain.processor.Pending registers) :
              ¬Instruction.NeverWaits registers path := fun never =>
            remains.not_restart slice sound.lowered pending never rfl
          obtain ⟨resumed, soundAfter, rfl, rest, rfl, finishesAfter, waited⟩ := remains
          obtain ⟨trackedAfter, garblerAfter, evaluatorAfter, portion, after, left⟩ :=
            trio.portion colored slice sound.lowered small (chosen rest rfl) soundAfter.log_known
          obtain ⟨drafts, duet, taken, _⟩ := inductionHypothesis _
            (List.length_append ▸ Processor.rank_of_restart waited rest.length) after.resumed
            soundAfter.opened finishesAfter
            (by rw [List.map_append, List.sum_append] at masks; omega) rfl
          have count := after.few_openings (room finishesAfter soundAfter.length_known)
          have total := taken.trans (congrArg (List.drop _) left)
          rw [List.drop_drop] at total
          exact ⟨_, .restart portion count (left ▸ duet), total, fun registers pending never =>
            absurd never (waits registers pending)⟩

end Trio

end Garbling
