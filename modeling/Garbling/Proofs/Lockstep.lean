import Mathlib
import Garbling.Proofs.Footprints
import Garbling.Proofs.Openings

/-!
# Machines in lockstep

Which instructions a slice executes, and how it ends, depends on the program and on the open values
only. Two machines of any parties that are abreast stay so through a slice: whatever their wires and
the values that are not open, they execute the same instructions and stop for the same reason.

The evaluator knows every value as soon as it is revealed, so what it has revealed at one time is the
beginning of what it has revealed later on.
-/

namespace Garbling

variable {α β σ τ : Type}

namespace Machine

/-- Two machines are at the same place of a program, have wires in the same registers, and agree on
the open values. -/
def Abreast (first : Machine α σ) (second : Machine β τ) : Prop :=
  Processor.Related (fun _ _ => True) (fun _ _ => True) first.processor second.processor

variable {first : Backend α σ} {second : Backend β τ} {instruction : Instruction}
  {before after : Machine α σ} {other otherAfter : Machine β τ}

/-- Machines that complete the same instruction stay abreast. -/
theorem Completes.abreast (one : Completes first instruction before after)
    (two : Completes second instruction other otherAfter) (abreast : before.Abreast other) :
    after.Abreast otherAfter := by
  have opened {register : Register} {found otherFound : Option UInt64} {processor : Processor α}
      {otherProcessor : Processor β}
      (one : before.processor.readClear register = .ok (found, processor))
      (two : other.processor.readClear register = .ok (otherFound, otherProcessor)) :
      found = otherFound ∧
        Processor.Related (fun _ _ => True) (fun _ _ => True) processor otherProcessor := by
    obtain ⟨_, reads, related⟩ := Processor.Related.readClear abreast one
    cases reads.symm.trans two
    exact ⟨rfl, related⟩
  cases instruction with
  | garblerInput dst | evaluatorInput dst =>
      obtain ⟨_, _, _, rfl⟩ := one
      obtain ⟨_, _, _, rfl⟩ := two
      exact Processor.Related.write abreast dst trivial
  | xor dst lhs rhs =>
      obtain ⟨_, _, _, _, rfl⟩ := one
      obtain ⟨_, _, _, _, rfl⟩ := two
      exact Processor.Related.write abreast dst trivial
  | and dst lhs rhs =>
      obtain ⟨_, _, _, _, _, _, _, rfl⟩ := one
      obtain ⟨_, _, _, _, _, _, _, rfl⟩ := two
      exact Processor.Related.write abreast dst trivial
  | not dst src =>
      obtain ⟨_, _, rfl⟩ := one
      obtain ⟨_, _, rfl⟩ := two
      exact Processor.Related.write abreast dst trivial
  | reveal dst src =>
      obtain ⟨_, _, _, _, _, rfl⟩ := one
      obtain ⟨_, _, _, _, _, rfl⟩ := two
      exact Processor.Related.reveal abreast dst trivial
  | output src =>
      obtain ⟨_, _, _, _, rfl⟩ := one
      obtain ⟨_, _, _, _, rfl⟩ := two
      exact abreast
  | constant dst value =>
      subst one two
      exact Processor.Related.writeClear abreast dst _
  | jump target =>
      subst one two
      exact Processor.Related.jump abreast target.toNat
  | store src base offset =>
      obtain ⟨_, found, _, _, clear, stored⟩ := one
      obtain ⟨_, _, _, _, otherClear, otherStored⟩ := two
      obtain ⟨rfl, related⟩ := opened clear otherClear
      cases found with
      | none =>
          subst stored otherStored
          exact related
      | some address =>
          obtain ⟨_, _, rfl⟩ := stored
          obtain ⟨_, _, rfl⟩ := otherStored
          exact related
  | load dst base offset =>
      obtain ⟨found, _, clear, loaded⟩ := one
      obtain ⟨_, _, otherClear, otherLoaded⟩ := two
      obtain ⟨rfl, related⟩ := opened clear otherClear
      cases found with
      | none =>
          subst loaded otherLoaded
          exact related
      | some address =>
          obtain ⟨_, _, rfl⟩ := loaded
          obtain ⟨_, _, rfl⟩ := otherLoaded
          exact related.write dst trivial
  | jumpIfZero condition target =>
      obtain ⟨found, _, clear, rfl⟩ := one
      obtain ⟨_, _, otherClear, rfl⟩ := two
      obtain ⟨rfl, related⟩ := opened clear otherClear
      by_cases zero : found = some 0
      · rw [if_pos zero, if_pos zero]
        exact related.jump target.toNat
      · rw [if_neg zero, if_neg zero]
        exact related

/-- What machines that are abreast attempt has the same outcome, and they stay abreast. -/
theorem Abreast.attempt {checkpoint otherCheckpoint : Checkpoint} (abreast : before.Abreast other)
    (one : attempt first instruction before = (.ok checkpoint, after))
    (two : Machine.attempt second instruction other = (.ok otherCheckpoint, otherAfter)) :
    checkpoint = otherCheckpoint ∧ after.Abreast otherAfter := by
  obtain ⟨middle, completes, rfl, rfl⟩ := attempt_eq_ok_iff.mp one
  obtain ⟨otherMiddle, otherCompletes, rfl, rfl⟩ := attempt_eq_ok_iff.mp two
  have same : middle.Abreast otherMiddle :=
    completes.abreast otherCompletes (Processor.Related.advance abreast)
  have taint := Processor.Related.taint same
  constructor
  · rw [taint]
  · exact Processor.Related.flag same {}

/-- Machines that are abreast execute the same instructions in a slice, stop for the same reason, and
stay abreast. -/
theorem Slice.abreast {program : Program} {budget : Nat} {executed others : List Instruction}
    {ending otherEnding : Break} (one : Slice first program budget before executed ending after)
    (two : Slice second program budget other others otherEnding otherAfter)
    (abreast : before.Abreast other) :
    executed = others ∧ ending = otherEnding ∧ after.Abreast otherAfter := by
  induction one generalizing other others with
  | done finished =>
      rw [Processor.Related.counter abreast] at finished
      cases two with
      | done => exact ⟨rfl, rfl, abreast⟩
      | time next | restart next | step next => cases finished.symm.trans next
  | time next =>
      rw [Processor.Related.counter abreast] at next
      cases two with
      | time => exact ⟨rfl, rfl, abreast⟩
      | done finished => cases next.symm.trans finished
  | restart next attempted =>
      rw [Processor.Related.counter abreast] at next
      cases two with
      | done finished => cases next.symm.trans finished
      | restart otherNext otherAttempted =>
          cases next.symm.trans otherNext
          exact ⟨rfl, rfl, (abreast.attempt attempted otherAttempted).2⟩
      | step otherNext otherAttempted =>
          cases next.symm.trans otherNext
          cases (abreast.attempt attempted otherAttempted).1
  | step next attempted slice inductionHypothesis =>
      rw [Processor.Related.counter abreast] at next
      cases two with
      | done finished => cases next.symm.trans finished
      | restart otherNext otherAttempted =>
          cases next.symm.trans otherNext
          cases (abreast.attempt attempted otherAttempted).1
      | step otherNext otherAttempted otherSlice =>
          cases next.symm.trans otherNext
          obtain ⟨rfl, rfl, still⟩ :=
            inductionHypothesis otherSlice (abreast.attempt attempted otherAttempted).2
          exact ⟨rfl, rfl, still⟩

end Machine

namespace RevealLog

variable {log first second : RevealLog} {values others whole : List UInt64}

/-- The log holds these values, all of which are known. -/
def Holds (log : RevealLog) (values : List UInt64) : Prop :=
  log.values.toList = values.map some

namespace Holds

theorem empty : Holds {} [] := rfl

theorem length_eq (holds : log.Holds values) : values.length = log.values.size := by
  rw [← Array.length_toList, holds, List.length_map]

theorem push (holds : log.Holds values) (value : UInt64) :
    (log.push (some value)).Holds (values ++ [value]) := by
  rw [Holds, RevealLog.push, Array.toList_push, holds, List.map_append]
  rfl

theorem opening (holds : log.Holds values) : log.opening.Holds values := holds

theorem revealed_opening (holds : log.Holds values) : log.opening.revealed = values := by
  rw [RevealLog.revealed_opening, holds, List.filterMap_map]
  exact List.filterMap_some

/-- Logs that hold the beginning of the same values are the same if they are as long as each other
and open to the same place. -/
theorem eq_of_beginning (one : first.Holds values) (two : second.Holds others)
    (begins : values <+: whole) (othersBegin : others <+: whole)
    (size : first.values.size = second.values.size) (opened : first.opened = second.opened) :
    first = second := by
  have length : values.length = others.length := by
    rw [one.length_eq, two.length_eq, size]
  have same : values = others :=
    (List.prefix_of_prefix_length_le begins othersBegin length.le).eq_of_length length
  have entries : first.values = second.values := by
    apply Array.toList_inj.mp
    rw [one, two, same]
  cases first
  cases second
  cases entries
  cases opened
  rfl

end Holds

end RevealLog

namespace Machine

variable {pad : Pad} {program : Program} {budget : Nat} {instruction : Instruction}
  {before after : Machine Label EvaluationState} {executed : List Instruction} {ending : Break}
  {values : List UInt64}

/-- The evaluator knows what it reveals. -/
theorem Completes.holds (completes : Completes (EvaluationState.backend pad) instruction before after)
    (holds : before.processor.log.Holds values) :
    ∃ more, after.processor.log.Holds (values ++ more) := by
  have logs := completes.logs
  by_cases reveals : instruction.reveals = true
  · rw [if_pos reveals] at logs
    obtain ⟨_, _, _, performed, logged⟩ := logs
    obtain ⟨_, _, _, _, rfl, _⟩ := EvaluationState.reveal_eq_ok.mp performed
    rw [logged]
    exact ⟨_, holds.push _⟩
  · rw [if_neg reveals] at logs
    rw [logs]
    exact ⟨[], by rwa [List.append_nil]⟩

/-- A slice of the evaluator adds to the values that it knows. -/
theorem Slice.holds
    (slice : Slice (EvaluationState.backend pad) program budget before executed ending after)
    (holds : before.processor.log.Holds values) :
    ∃ more, after.processor.log.Holds (values ++ more) := by
  induction slice generalizing values with
  | done | time => exact ⟨[], by rwa [List.append_nil]⟩
  | restart next attempted =>
      obtain ⟨_, completes, _, rfl⟩ := attempt_eq_ok_iff.mp attempted
      exact completes.holds holds
  | step next attempted slice inductionHypothesis =>
      obtain ⟨_, completes, _, rfl⟩ := attempt_eq_ok_iff.mp attempted
      obtain ⟨first, holds⟩ := completes.holds holds
      obtain ⟨rest, holds⟩ := inductionHypothesis holds
      refine ⟨first ++ rest, ?_⟩
      rwa [← List.append_assoc]

end Machine

end Garbling
