import Mathlib
import Garbling.Proofs.ProgramFailure
import Garbling.Proofs.Turns

/-!
# Stretches

A stretch is what the machines of both parties go through from a point between two slices to a later
one, with further slices to follow. If the reference interpreter fails then there is a stretch to a
slice in which the garbler fails for the same reason. If the evaluator has some inputs only of those
with which both parties play a duet then there is a stretch to a slice for which it lacks inputs.
-/

namespace Garbling

variable {suite : Suite} {offset : Offset} {program : Program} {budget : Nat}

/-- What both parties go through between two slices: the draft and the ending of each slice. -/
inductive Stretch (suite : Suite) (offset : Offset) (program : Program) (budget : Nat) :
    Machine Label (GarblingState suite) → Machine Label EvaluationState → (inputs : List Bool) →
      List (Draft × Break) → Machine Label (GarblingState suite) → Machine Label EvaluationState →
        (left : List Bool) → Prop
  | refl {garbler : Machine Label (GarblingState suite)} {evaluator : Machine Label EvaluationState}
      {inputs : List Bool} :
      Stretch suite offset program budget garbler evaluator inputs [] garbler evaluator inputs
  | time {garbler garblerAfter garblerLast : Machine Label (GarblingState suite)}
      {evaluator evaluatorAfter evaluatorLast : Machine Label EvaluationState}
      {inputs left : List Bool} {drafts : List (Draft × Break)}
      (portion : Portion suite offset program budget garbler evaluator inputs .time garblerAfter
        evaluatorAfter)
      (rest : Stretch suite offset program budget garblerAfter.emptied evaluatorAfter
        (inputs.drop garblerAfter.backend.draft.evaluatorInputs.size) drafts garblerLast
        evaluatorLast left) :
      Stretch suite offset program budget garbler evaluator inputs
        ((garblerAfter.backend.draft, .time) :: drafts) garblerLast evaluatorLast left
  | restart {garbler garblerAfter garblerLast : Machine Label (GarblingState suite)}
      {evaluator evaluatorAfter evaluatorLast : Machine Label EvaluationState}
      {inputs left : List Bool} {drafts : List (Draft × Break)}
      (portion : Portion suite offset program budget garbler evaluator inputs .restart garblerAfter
        evaluatorAfter)
      (few : evaluatorAfter.processor.log.takeOpenings.1.length < UInt64.size)
      (rest : Stretch suite offset program budget
        (garblerAfter.emptied.resumed evaluatorAfter.processor.log.opening)
        (evaluatorAfter.resumed evaluatorAfter.processor.log.opening)
        (inputs.drop garblerAfter.backend.draft.evaluatorInputs.size) drafts garblerLast
        evaluatorLast left) :
      Stretch suite offset program budget garbler evaluator inputs
        ((garblerAfter.backend.draft, .restart) :: drafts) garblerLast evaluatorLast left

theorem Instruction.allPending_append (before : Finset Register)
    (executed rest : List Instruction) :
    allPending before (executed ++ rest) = allPending (allPending before executed) rest :=
  List.foldl_append

theorem Reference.NeverWaits.of_append {before : Finset Register} {executed rest : List Instruction}
    {last : Instruction} {reached : Reference}
    (never : NeverWaits before (executed ++ rest) last reached) :
    NeverWaits (Instruction.allPending before executed) rest last reached where
  executed := never.executed.of_append
  failing register consulted := by
    rw [← Instruction.allPending_append]
    exact never.failing register consulted

/-- If the reference interpreter fails, other than by a lack of inputs of the evaluator, then there
is a stretch to a slice in which the garbler fails for the same reason. No slice asks for a restart
if no instruction up to the failing one needs a value that was revealed before it. -/
theorem Trio.stretch {plain : Machine Bool Plain}
    {tracked : Machine (Bool × Label) (Plain × GarblingState suite)}
    {garbler : Machine Label (GarblingState suite)} {evaluator : Machine Label EvaluationState}
    (trio : Trio suite offset plain tracked garbler evaluator) (colored : offset.Colored)
    (sound : plain.processor.Sound) {path : List Instruction} {last : Instruction}
    {error : ExecutionError} {reached : Reference}
    (fails : Reference.Fails program plain.reference path last error reached)
    (other : error ≠ .missingEvaluatorInput) (positive : 0 < budget) (small : budget < UInt64.size)
    (masks : (path.map Instruction.width).sum < UInt64.size)
    (values : reached.revealed.length < UInt64.size) :
    ∃ drafts garblerLast evaluatorLast left machine,
      Stretch suite offset program budget garbler evaluator plain.backend.evaluatorInputs drafts
        garblerLast evaluatorLast left ∧
      Machine.execute (GarblingState.backend suite offset) program budget garblerLast =
        (.error (.execution error), machine) ∧
      ∀ registers, plain.processor.Pending registers →
        Reference.NeverWaits registers path last reached →
          ∀ draft ∈ drafts, draft.2 ≠ .restart := by
  -- The number of instructions that are left decreases, or else a restart loses its chance.
  induction measure : 2 * path.length + plain.processor.waiting using Nat.strong_induction_on
    generalizing plain tracked garbler evaluator path with
  | _ measure inductionHypothesis =>
      subst measure
      obtain ⟨executed, ending, plainAfter, slice, leaves⟩ |
          ⟨plainAfter, fits, slice, next, lacks⟩ := Machine.slice_of_fails sound fails budget
      · have waits (registers : Finset Register) (pending : plain.processor.Pending registers)
            (never : Reference.NeverWaits registers path last reached) : ending ≠ .restart :=
          leaves.not_restart slice sound.lowered pending fails.next never
        cases leaves with
        | @time _ rest soundAfter split executes full =>
            subst split
            rw [List.map_append, List.sum_append] at masks
            obtain ⟨trackedAfter, garblerAfter, evaluatorAfter, portion, after, left⟩ :=
              trio.portion colored slice sound.lowered small
                (by rw [Instruction.allNeed_mask]; omega) soundAfter.log_known
            have waiting := plainAfter.processor.waiting_le_one
            obtain ⟨drafts, garblerLast, evaluatorLast, inputs, machine, stretch, garbles, free⟩ :=
              inductionHypothesis _ (by rw [List.length_append]; omega) after soundAfter
                ⟨executes, fails.next, fails.failure⟩ (by omega) rfl
            rw [left] at stretch
            refine ⟨_, _, _, _, machine, .time portion stretch, garbles,
              fun registers pending never => ?_⟩
            exact List.forall_mem_cons.mpr ⟨nofun,
              free _ (slice.pending sound.lowered pending).1 never.of_append⟩
        | @restart resumed _ rest soundAfter split executes next attempted waited =>
            subst split
            have chosen : Instruction.allNeed executed .mask < UInt64.size ∧
                (rest.map Instruction.width).sum < UInt64.size := by
              rw [List.map_append, List.sum_append] at masks
              rw [Instruction.allNeed_mask]
              omega
            obtain ⟨trackedAfter, garblerAfter, evaluatorAfter, portion, after, left⟩ :=
              trio.portion colored slice sound.lowered small chosen.1 soundAfter.log_known
            obtain ⟨drafts, garblerLast, evaluatorLast, inputs, machine, stretch, garbles, _⟩ :=
              inductionHypothesis _
                (List.length_append ▸ Processor.rank_of_restart waited rest.length) after.resumed
                soundAfter.opened ⟨executes, fails.next, fails.failure⟩ chosen.2 rfl
            have revealed := executes.length_revealed_le
            have count : evaluatorAfter.processor.log.takeOpenings.1.length < UInt64.size :=
              after.few_openings (soundAfter.length_known.symm.trans_lt (revealed.trans_lt values))
            exact ⟨_, _, _, _, machine, .restart portion count (left ▸ stretch), garbles,
              fun registers pending never => absurd rfl (waits registers pending never)⟩
      · obtain ⟨machine, garbles⟩ := trio.garbler_fails fits slice next lacks other
        exact ⟨[], garbler, evaluator, _, machine, .refl, garbles, by simp⟩

/-- Only as many choices matter as there are inputs in a draft. -/
theorem Draft.select_append (draft : Draft) (offset : Offset) {choices : List Bool}
    (enough : draft.evaluatorInputs.size ≤ choices.length) (more : List Bool) :
    draft.select offset (choices ++ more) = draft.select offset choices := by
  have taken : (choices ++ more).take draft.evaluatorInputs.toList.length =
      choices.take draft.evaluatorInputs.toList.length :=
    List.take_append_of_le_length (by simpa using enough)
  rw [select, select, ← zipWith_take_length, taken, zipWith_take_length]

/-- The evaluator needs no more inputs for a slice than there are in the draft. -/
theorem Portion.of_append {garbler garblerAfter : Machine Label (GarblingState suite)}
    {evaluator evaluatorAfter : Machine Label EvaluationState} {inputs more : List Bool}
    {ending : Break}
    (portion : Portion suite offset program budget garbler evaluator (inputs ++ more) ending
      garblerAfter evaluatorAfter)
    (enough : garblerAfter.backend.draft.evaluatorInputs.size ≤ inputs.length) :
    Portion suite offset program budget garbler evaluator inputs ending garblerAfter
      evaluatorAfter :=
  { portion with
    enough
    evaluates := by
      rw [← Draft.select_append _ _ enough more]
      exact portion.evaluates }

/-- The garbler executes a slice for which the evaluator lacks inputs. -/
structure Lacking (suite : Suite) (offset : Offset) (program : Program) (budget : Nat)
    (garbler : Machine Label (GarblingState suite)) (evaluator : Machine Label EvaluationState)
    (inputs : List Bool) (ending : Break) (garblerAfter : Machine Label (GarblingState suite)) :
    Prop where
  garbles : Machine.execute (GarblingState.backend suite offset) program budget garbler =
    (.ok ending, garblerAfter)
  first : garblerAfter.backend.draft.firstGate = evaluator.backend.gateCount
  small : garblerAfter.backend.draft.Small
  missing : inputs.length < garblerAfter.backend.draft.evaluatorInputs.size

/-- What is a portion with some inputs is not one with too few of them. -/
theorem Portion.lacking {garbler garblerAfter : Machine Label (GarblingState suite)}
    {evaluator evaluatorAfter : Machine Label EvaluationState} {inputs choices : List Bool}
    {ending : Break}
    (portion : Portion suite offset program budget garbler evaluator choices ending garblerAfter
      evaluatorAfter) (missing : inputs.length < garblerAfter.backend.draft.evaluatorInputs.size) :
    Lacking suite offset program budget garbler evaluator inputs ending garblerAfter :=
  ⟨portion.garbles, portion.first, fun item _ => portion.short item, missing⟩

/-- If the evaluator has some inputs only, fewer than all slices need, then there is a stretch to a
slice for which it lacks inputs. -/
theorem Duet.stretch {garbler : Machine Label (GarblingState suite)}
    {evaluator : Machine Label EvaluationState} {inputs more : List Bool}
    {drafts : List (Draft × Break)} {revealed outputs : List UInt64}
    (duet : Duet suite offset program budget garbler evaluator (inputs ++ more) drafts revealed
      outputs)
    (fewer : inputs.length < (drafts.map fun draft => draft.1.evaluatorInputs.size).sum) :
    ∃ drafts garblerLast evaluatorLast left ending machine,
      Stretch suite offset program budget garbler evaluator inputs drafts garblerLast evaluatorLast
        left ∧
      Lacking suite offset program budget garblerLast evaluatorLast left ending machine := by
  generalize whole : inputs ++ more = choices at duet
  induction duet generalizing inputs with
  | done portion few =>
      rw [List.map_singleton, List.sum_singleton] at fewer
      exact ⟨[], _, _, inputs, .done, _, .refl, portion.lacking fewer⟩
  | @time _ machine _ _ _ _ _ _ portion rest inductionHypothesis =>
      subst whole
      rw [List.map_cons, List.sum_cons] at fewer
      by_cases enough : machine.backend.draft.evaluatorInputs.size ≤ inputs.length
      · obtain ⟨drafts, garblerLast, evaluatorLast, left, ending, last, stretch, lacking⟩ :=
          inductionHypothesis (inputs.length_drop ▸ Nat.sub_lt_left_of_lt_add enough fewer)
            (List.drop_append_of_le_length enough).symm
        exact ⟨_, garblerLast, evaluatorLast, left, ending, last,
          .time (portion.of_append enough) stretch, lacking⟩
      · exact ⟨[], _, _, inputs, .time, machine, .refl, portion.lacking (Nat.lt_of_not_le enough)⟩
  | @restart _ machine _ _ _ _ _ _ portion few rest inductionHypothesis =>
      subst whole
      rw [List.map_cons, List.sum_cons] at fewer
      by_cases enough : machine.backend.draft.evaluatorInputs.size ≤ inputs.length
      · obtain ⟨drafts, garblerLast, evaluatorLast, left, ending, last, stretch, lacking⟩ :=
          inductionHypothesis (inputs.length_drop ▸ Nat.sub_lt_left_of_lt_add enough fewer)
            (List.drop_append_of_le_length enough).symm
        exact ⟨_, garblerLast, evaluatorLast, left, ending, last,
          .restart (portion.of_append enough) few stretch, lacking⟩
      · exact ⟨[], _, _, inputs, .restart, machine, .refl,
          portion.lacking (Nat.lt_of_not_le enough)⟩

end Garbling
