import Mathlib
import Garbling.Proofs.Duet

/-!
# What can come of a slice

Parties that are in step may not come to the end of their next slice together. The garbler may
fail in it, the evaluator may lack inputs for it, or the batch may have more masks than can be
counted by a word; then the evaluator runs out of masks. Otherwise it is a portion that both
execute, and afterwards the parties are in step again.
-/

namespace Garbling

variable {suite : Suite} {offset : Offset} {program : Program} {budget : Nat}

theorem zipWith_take_length {α β γ : Type} (combine : α → β → γ) (first : List α) (second : List β) :
    first.zipWith combine (second.take first.length) = first.zipWith combine second := by
  have taken := (List.take_zipWith : (first.zipWith combine second).take first.length = _)
  rw [List.take_length] at taken
  rw [← taken]
  apply List.take_of_length_le
  rw [List.length_zipWith]
  exact Nat.min_le_left _ _

theorem CellsRelated.refl {α : Type} {wire : α → α → Prop} (same : ∀ value, wire value value)
    (cells : Array (Option α)) : CellsRelated wire cells cells := by
  refine ⟨rfl, fun index => ?_⟩
  cases cells[index]?.join with
  | none => exact .none
  | some value => exact .some (same value)

theorem Processor.Related.refl {α : Type} {wire : α → α → Prop}
    {entry : Option UInt64 → Option UInt64 → Prop} {processor : Processor α}
    (same : ∀ value, wire value value) (known : ∀ value, entry value value)
    (bounded : processor.log.opened ≤ processor.log.values.size) :
    Processor.Related wire entry processor processor :=
  ⟨rfl, .refl same _, rfl, .refl bounded fun _ value _ _ => known value, rfl⟩

namespace Draft

/-- What the evaluator finds of a draft: all of it, as long as the masks can be counted by a
word. -/
def arrived (draft : Draft) : Draft :=
  { draft with masks := (draft.masks.toList.take (draft.masks.toList.length % UInt64.size)).toArray }

theorem arrived_eq {draft : Draft} (short : draft.amount .mask < UInt64.size) :
    draft.arrived = draft := by
  have whole : draft.masks.toList.length % UInt64.size = draft.masks.toList.length :=
    Nat.mod_eq_of_lt short
  rw [arrived, whole, List.take_length, Array.toArray_toList]

/-- The masks that do not arrive. -/
def lost (draft : Draft) : BatchReader :=
  { masks := draft.masks.toList.drop (draft.masks.toList.length % UInt64.size) }

theorem append_lost (draft : Draft) (labels : List Label) :
    (draft.arrived.reader labels).append draft.lost = draft.reader labels := by
  simp [reader, arrived, lost, BatchReader.append]

theorem remaining_lost {draft : Draft} (long : UInt64.size ≤ draft.amount .mask) :
    draft.lost.remaining ≠ 0 := by
  have length : UInt64.size ≤ draft.masks.toList.length := long
  have bound : draft.masks.toList.length % UInt64.size < UInt64.size := Nat.mod_lt _ (by decide)
  simp only [lost, BatchReader.remaining, List.length_nil, List.length_drop]
  omega

/-- All of the draft but its masks can be counted by words. -/
def Small (draft : Draft) : Prop := ∀ item, item ≠ .mask → draft.amount item < UInt64.size

theorem Small.arrived {draft : Draft} (small : draft.Small) : draft.arrived.Small := by
  intro item other
  cases item with
  | mask => exact absurd rfl other
  | gate => exact small .gate other
  | garblerInput => exact small .garblerInput other
  | evaluatorInput => exact small .evaluatorInput other

end Draft

section

variable {garbler garblerAfter : Machine Label (GarblingState suite)} {ending : Break}

/-- The draft of a slice begins with the next gate. -/
theorem Draft.firstGate_of_execute
    (empty : garbler.backend.draft = { firstGate := garbler.backend.gateCount })
    (executed : Machine.execute (GarblingState.backend suite offset) program budget garbler =
      (.ok ending, garblerAfter)) :
    garblerAfter.backend.draft.firstGate = garbler.backend.gateCount := by
  obtain ⟨instructions, slice⟩ := Machine.execute_eq_ok_iff.mp executed
  obtain ⟨attempted, _, effects⟩ := slice.effects_le
  rw [GarblingState.firstGate_of_effects effects, empty]

/-- The draft of a slice is small. -/
theorem Draft.small_of_execute
    (empty : garbler.backend.draft = { firstGate := garbler.backend.gateCount })
    (small : budget < UInt64.size)
    (executed : Machine.execute (GarblingState.backend suite offset) program budget garbler =
      (.ok ending, garblerAfter)) : garblerAfter.backend.draft.Small := by
  obtain ⟨instructions, slice⟩ := Machine.execute_eq_ok_iff.mp executed
  intro item other
  have bound := GarblingState.amount_le_of_slice slice other
  rw [empty, Draft.amount_empty] at bound
  omega

end

/-- The evaluator runs out of masks if some of them do not arrive. -/
theorem Machine.exhausts {evaluator evaluatorAfter : Machine Label EvaluationState} {draft : Draft}
    {labels : List Label} {ending : Break}
    (bounded : evaluator.processor.log.opened ≤ evaluator.processor.log.values.size)
    (evaluates : Machine.execute (EvaluationState.backend suite.pad) program budget
      (evaluator.loaded (draft.reader labels)) = (.ok ending, evaluatorAfter))
    (nothing : evaluatorAfter.backend.reader.remaining = 0)
    (long : UInt64.size ≤ draft.amount .mask) :
    ∃ error after, Machine.execute (EvaluationState.backend suite.pad) program budget
      (evaluator.loaded (draft.arrived.reader labels)) = (.error error, after) := by
  cases executed : Machine.execute (EvaluationState.backend suite.pad) program budget
    (evaluator.loaded (draft.arrived.reader labels)) with
  | mk outcome after =>
      cases outcome with
      | error error => exact ⟨error, after, rfl⟩
      | ok other =>
          obtain ⟨instructions, slice⟩ := Machine.execute_eq_ok_iff.mp executed
          have related : (EvaluationState.withMore suite.pad draft.lost).Related
              (evaluator.loaded (draft.arrived.reader labels))
              (evaluator.loaded (draft.reader labels)) := by
            have same (label : Label) :
                (EvaluationState.withMore suite.pad draft.lost).wire label label := rfl
            refine ⟨.refl same (fun _ => rfl) bounded, .refl same _, ?_⟩
            rw [← draft.append_lost]
            rfl
          obtain ⟨whole, wholeSlice, wholeRelated⟩ :=
            (EvaluationState.withMore suite.pad draft.lost).slice related slice trivial
          have same := Machine.execute_eq_ok_iff.mpr ⟨instructions, wholeSlice⟩
          rw [evaluates] at same
          cases same
          have left := wholeRelated.backend
          rw [left, BatchReader.remaining_append] at nothing
          exact absurd (Nat.eq_zero_of_add_eq_zero_left nothing) (Draft.remaining_lost long)

/-- What can come of the next slice of both parties. -/
inductive Turn (suite : Suite) (offset : Offset) (program : Program) (budget : Nat)
    (garbler : Machine Label (GarblingState suite)) (evaluator : Machine Label EvaluationState)
    (inputs : List Bool) : Prop
  | fails {error : Error} {garblerAfter : Machine Label (GarblingState suite)}
      (garbles : Machine.execute (GarblingState.backend suite offset) program budget garbler =
        (.error error, garblerAfter))
  | lacks {ending : Break} {garblerAfter : Machine Label (GarblingState suite)}
      (garbles : Machine.execute (GarblingState.backend suite offset) program budget garbler =
        (.ok ending, garblerAfter))
      (first : garblerAfter.backend.draft.firstGate = evaluator.backend.gateCount)
      (small : garblerAfter.backend.draft.Small)
      (missing : inputs.length < garblerAfter.backend.draft.evaluatorInputs.size)
  | exhausts {ending : Break} {garblerAfter : Machine Label (GarblingState suite)} {error : Error}
      {evaluatorAfter : Machine Label EvaluationState}
      (garbles : Machine.execute (GarblingState.backend suite offset) program budget garbler =
        (.ok ending, garblerAfter))
      (first : garblerAfter.backend.draft.firstGate = evaluator.backend.gateCount)
      (small : garblerAfter.backend.draft.Small)
      (enough : garblerAfter.backend.draft.evaluatorInputs.size ≤ inputs.length)
      (evaluates : Machine.execute (EvaluationState.backend suite.pad) program budget
        (evaluator.loaded (garblerAfter.backend.draft.arrived.reader
          (garblerAfter.backend.draft.select offset inputs))) = (.error error, evaluatorAfter))
  | portion {ending : Break} {garblerAfter : Machine Label (GarblingState suite)}
      {evaluatorAfter : Machine Label EvaluationState}
      (portion : Portion suite offset program budget garbler evaluator inputs ending garblerAfter
        evaluatorAfter)
      (inStep : Machine.InStep offset garblerAfter.emptied evaluatorAfter)

namespace Machine.InStep

variable {garbler garblerAfter : Machine Label (GarblingState suite)}
  {evaluator : Machine Label EvaluationState}

/-- The evaluator knows all values that the garbler does not know, so the garbler can fill them
in. -/
theorem opens (inStep : Machine.InStep offset garbler evaluator) :
    garbler.processor.log.applyOpenings evaluator.processor.log.takeOpenings.1 =
      .ok evaluator.processor.log.opening := by
  have related := inStep.processor.log
  apply related.symm.applyOpenings
  intro index value beyond held
  have inside := (Array.getElem?_eq_some_iff.mp held).1
  rw [← related.size] at inside
  exact (related.pending index _ value (related.opened ▸ beyond)
    (Array.getElem?_eq_getElem inside) held).2

/-- Parties in step stay so when they go back to the instruction before the current one and open all
values. -/
theorem resumed (inStep : Machine.InStep offset garbler evaluator) (log : RevealLog) :
    Machine.InStep offset (garbler.resumed log.opening) (evaluator.resumed log.opening) :=
  { inStep with processor := { inStep.processor.rewind with log := .opening log } }

/-- Whatever the inputs of the evaluator are, one of the four things comes of the next slice of
parties that are in step. -/
theorem turn (inStep : Machine.InStep offset garbler evaluator) (colored : offset.Colored)
    (small : budget < UInt64.size) (inputs : List Bool) :
    Turn suite offset program budget garbler evaluator inputs := by
  cases executed : Machine.execute (GarblingState.backend suite offset) program budget garbler with
  | mk outcome garblerAfter =>
      cases outcome with
      | error error => exact .fails executed
      | ok ending =>
          obtain ⟨instructions, slice⟩ := Machine.execute_eq_ok_iff.mp executed
          obtain ⟨count, empty⟩ := inStep.backend
          have first : garblerAfter.backend.draft.firstGate = evaluator.backend.gateCount :=
            (Draft.firstGate_of_execute empty executed).trans count.symm
          have countable := Draft.small_of_execute empty small executed
          by_cases enough : garblerAfter.backend.draft.evaluatorInputs.size ≤ inputs.length
          · have chosen : (inputs.take garblerAfter.backend.draft.evaluatorInputs.size).length =
                garblerAfter.backend.draft.evaluatorInputs.size := List.length_take_of_le enough
            obtain ⟨evaluatorAfter, evaluatorSlice, nothing, inStepAfter⟩ :=
              inStep.slice colored slice chosen
            have labels : garblerAfter.backend.draft.select offset
                (inputs.take garblerAfter.backend.draft.evaluatorInputs.size) =
                garblerAfter.backend.draft.select offset inputs := by
              rw [← Array.length_toList, Draft.select, zipWith_take_length, Draft.select]
            rw [labels] at evaluatorSlice
            have evaluates := Machine.execute_eq_ok_iff.mpr ⟨instructions, evaluatorSlice⟩
            by_cases short : garblerAfter.backend.draft.amount .mask < UInt64.size
            · refine .portion ⟨executed, first, enough, fun item => ?_, evaluates, ?_, ?_⟩
                inStepAfter
              · by_cases mask : item = .mask
                · rw [mask]
                  exact short
                · exact countable item mask
              · rw [BatchReader.finish, if_pos nothing]
              · exact inStepAfter.opens
            · have bounded : evaluator.processor.log.opened ≤
                  evaluator.processor.log.values.size := by
                rw [← inStep.processor.log.opened, ← inStep.processor.log.size]
                exact inStep.processor.log.bounded
              obtain ⟨error, after, exhausted⟩ :=
                Machine.exhausts bounded evaluates nothing (Nat.le_of_not_lt short)
              exact .exhausts executed first countable enough exhausted
          · exact .lacks executed first countable (Nat.lt_of_not_le enough)

end Machine.InStep

end Garbling
