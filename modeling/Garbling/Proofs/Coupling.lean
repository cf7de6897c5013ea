import Mathlib
import Garbling.Proofs.Related

/-!
# Coupled backends

A coupling of two backends says how their wires, their knowledge of revealed values and their
states go together, and that the second backend can follow the first one in every operation.
Then the second one can follow the first one through every slice: it executes the same
instructions and stops at the same place for the same reason.

The second backend may rely on the first one staying within bounds, such as the contents of
a batch that was made in advance.
-/

namespace Garbling

variable {α β σ τ : Type}

/-- Whatever the first action does within bounds, the second one does as well. -/
def Action.Matches (state : σ → τ → Prop) (within : σ → Prop) {ρ φ : Type}
    (result : ρ → φ → Prop) (first : Action σ ρ) (second : Action τ φ) : Prop :=
  ∀ {before : σ} {other : τ} {value : ρ} {after : σ}, state before other →
    first.runFrom before = (.ok value, after) → within after →
      ∃ found otherAfter, second.runFrom other = (.ok found, otherAfter) ∧
        result value found ∧ state after otherAfter

/-- The second backend can follow the first one. -/
structure Coupling (first : Backend α σ) (second : Backend β τ) where
  wire : α → β → Prop
  /-- Entries of the logs that are not open. -/
  entry : Option UInt64 → Option UInt64 → Prop
  state : σ → τ → Prop
  within : σ → Prop
  /-- A state that leads to one within bounds is within bounds. -/
  within_of_effect : ∀ {instruction : Instruction} {before after : σ},
    first.Effect instruction before after → within after → within before
  garblerInput : Action.Matches state within wire first.garblerInput second.garblerInput
  evaluatorInput : Action.Matches state within wire first.evaluatorInput second.evaluatorInput
  and : ∀ {left right : α} {otherLeft otherRight : β}, wire left otherLeft →
    wire right otherRight →
      Action.Matches state within wire (first.and left right) (second.and otherLeft otherRight)
  xor : ∀ {left right : α} {otherLeft otherRight : β}, wire left otherLeft →
    wire right otherRight → wire (first.xor left right) (second.xor otherLeft otherRight)
  not : ∀ {value : α} {other : β}, wire value other → wire (first.not value) (second.not other)
  reveal : ∀ {wires : List α} {others : List β}, List.Forall₂ wire wires others →
    Action.Matches state within entry (first.reveal wires) (second.reveal others)
  output : ∀ {wires : List α} {others : List β}, List.Forall₂ wire wires others →
    Action.Matches state within (fun _ _ => True) (first.output wires) (second.output others)

namespace Coupling

variable {first : Backend α σ} {second : Backend β τ}

/-- The machines that a coupling relates. -/
abbrev Related (coupling : Coupling first second) : Machine α σ → Machine β τ → Prop :=
  Machine.Related coupling.wire coupling.entry coupling.state

variable (coupling : Coupling first second)

/-- An instruction that the first machine completes is completed by the second one. -/
theorem completes {instruction : Instruction} {before after : Machine α σ} {other : Machine β τ}
    (related : coupling.Related before other)
    (completes : Machine.Completes first instruction before after)
    (within : coupling.within after.backend) :
    ∃ otherAfter, Machine.Completes second instruction other otherAfter ∧
      coupling.Related after otherAfter := by
  obtain ⟨processor, memory, backend⟩ := related
  cases instruction with
  | garblerInput dst =>
      obtain ⟨value, rest, performed, rfl⟩ := completes
      obtain ⟨found, otherRest, followed, same, backend⟩ :=
        coupling.garblerInput backend performed within
      exact ⟨_, ⟨found, otherRest, followed, rfl⟩, processor.write dst same, memory, backend⟩
  | evaluatorInput dst =>
      obtain ⟨value, rest, performed, rfl⟩ := completes
      obtain ⟨found, otherRest, followed, same, backend⟩ :=
        coupling.evaluatorInput backend performed within
      exact ⟨_, ⟨found, otherRest, followed, rfl⟩, processor.write dst same, memory, backend⟩
  | xor dst lhs rhs =>
      obtain ⟨left, right, leftRead, rightRead, rfl⟩ := completes
      obtain ⟨otherLeft, leftFound, leftSame⟩ := processor.read leftRead
      obtain ⟨otherRight, rightFound, rightSame⟩ := processor.read rightRead
      exact ⟨_, ⟨otherLeft, otherRight, leftFound, rightFound, rfl⟩,
        processor.write dst (coupling.xor leftSame rightSame), memory, backend⟩
  | and dst lhs rhs =>
      obtain ⟨left, right, value, rest, leftRead, rightRead, performed, rfl⟩ := completes
      obtain ⟨otherLeft, leftFound, leftSame⟩ := processor.read leftRead
      obtain ⟨otherRight, rightFound, rightSame⟩ := processor.read rightRead
      obtain ⟨found, otherRest, followed, same, backend⟩ :=
        coupling.and leftSame rightSame backend performed within
      exact ⟨_, ⟨otherLeft, otherRight, found, otherRest, leftFound, rightFound, followed, rfl⟩,
        processor.write dst same, memory, backend⟩
  | not dst src =>
      obtain ⟨value, read, rfl⟩ := completes
      obtain ⟨other, found, same⟩ := processor.read read
      exact ⟨_, ⟨other, found, rfl⟩, processor.write dst (coupling.not same), memory, backend⟩
  | reveal dst src =>
      obtain ⟨wires, value, rest, read, performed, rfl⟩ := completes
      obtain ⟨others, allFound, allSame⟩ := processor.readAll read
      obtain ⟨found, otherRest, followed, known, backend⟩ :=
        coupling.reveal allSame backend performed within
      exact ⟨_, ⟨others, found, otherRest, allFound, followed, rfl⟩, processor.reveal dst known,
        memory, backend⟩
  | output src =>
      obtain ⟨wires, rest, read, performed, rfl⟩ := completes
      obtain ⟨others, allFound, allSame⟩ := processor.readAll read
      obtain ⟨_, otherRest, followed, _, backend⟩ :=
        coupling.output allSame backend performed within
      exact ⟨_, ⟨others, otherRest, allFound, followed, rfl⟩, processor, memory, backend⟩
  | constant dst value =>
      subst completes
      exact ⟨_, rfl, processor.writeClear dst _, memory, backend⟩
  | store src base offset =>
      obtain ⟨value, found, processorAfter, read, clear, stored⟩ := completes
      obtain ⟨other, valueFound, same⟩ := processor.read read
      obtain ⟨otherAfter, clearFound, processorRelated⟩ := processor.readClear clear
      cases found with
      | none =>
          subst stored
          exact ⟨_, ⟨other, none, otherAfter, valueFound, clearFound, rfl⟩, processorRelated,
            memory, backend⟩
      | some address =>
          obtain ⟨memoryAfter, success, rfl⟩ := stored
          obtain ⟨otherMemory, otherSuccess, memoryRelated⟩ :=
            Memory.store_related memory same success
          exact ⟨_, ⟨other, some address, otherAfter, valueFound, clearFound, otherMemory,
            otherSuccess, rfl⟩, processorRelated, memoryRelated, backend⟩
  | load dst base offset =>
      obtain ⟨found, processorAfter, clear, loaded⟩ := completes
      obtain ⟨otherAfter, clearFound, processorRelated⟩ := processor.readClear clear
      cases found with
      | none =>
          subst loaded
          exact ⟨_, ⟨none, otherAfter, clearFound, rfl⟩, processorRelated, memory, backend⟩
      | some address =>
          obtain ⟨value, success, rfl⟩ := loaded
          obtain ⟨other, otherSuccess, same⟩ := Memory.load_related memory success
          exact ⟨_, ⟨some address, otherAfter, clearFound, other, otherSuccess, rfl⟩,
            processorRelated.write dst same, memory, backend⟩
  | jumpIfZero condition target =>
      obtain ⟨found, processorAfter, clear, rfl⟩ := completes
      obtain ⟨otherAfter, clearFound, processorRelated⟩ := processor.readClear clear
      refine ⟨_, ⟨found, otherAfter, clearFound, rfl⟩, ?_, memory, backend⟩
      by_cases zero : found = some 0
      · rw [if_pos zero, if_pos zero]
        exact processorRelated.jump target.toNat
      · rw [if_neg zero, if_neg zero]
        exact processorRelated
  | jump target =>
      subst completes
      exact ⟨_, rfl, processor.jump target.toNat, memory, backend⟩

/-- What the first machine attempts without an error has the same outcome on the second one. -/
theorem attempt {instruction : Instruction} {before after : Machine α σ} {other : Machine β τ}
    {checkpoint : Checkpoint} (related : coupling.Related before other)
    (attempted : Machine.attempt first instruction before = (.ok checkpoint, after))
    (within : coupling.within after.backend) :
    ∃ otherAfter, Machine.attempt second instruction other = (.ok checkpoint, otherAfter) ∧
      coupling.Related after otherAfter := by
  obtain ⟨middle, completed, rfl, rfl⟩ := Machine.attempt_eq_ok_iff.mp attempted
  have advanced : coupling.Related { before with processor := before.processor.advance }
      { other with processor := other.processor.advance } :=
    { related with processor := related.processor.advance }
  obtain ⟨otherMiddle, otherCompleted, otherRelated⟩ :=
    coupling.completes advanced completed within
  refine ⟨_, Machine.attempt_eq_ok_iff.mpr ⟨otherMiddle, otherCompleted, ?_, rfl⟩, ?_⟩
  · rw [otherRelated.processor.taint]
  · exact { otherRelated with processor := otherRelated.processor.flag {} }

/-- An attempt that ends within bounds starts within bounds. -/
theorem within_of_attempt {instruction : Instruction} {before after : Machine α σ}
    {checkpoint : Checkpoint}
    (attempted : Machine.attempt first instruction before = (.ok checkpoint, after))
    (within : coupling.within after.backend) : coupling.within before.backend := by
  obtain ⟨middle, completed, _, rfl⟩ := Machine.attempt_eq_ok_iff.mp attempted
  exact coupling.within_of_effect completed.effect within

/-- A slice that ends within bounds starts within bounds. -/
theorem within_of_slice {program : Program} {budget : Nat} {before after : Machine α σ}
    {executed : List Instruction} {ending : Break}
    (slice : Machine.Slice first program budget before executed ending after)
    (within : coupling.within after.backend) : coupling.within before.backend := by
  induction slice with
  | done finished => exact within
  | time next => exact within
  | restart next attempted => exact coupling.within_of_attempt attempted within
  | step next attempted slice inductionHypothesis =>
      exact coupling.within_of_attempt attempted (inductionHypothesis within)

/-- The second machine follows the first one through a slice. -/
theorem slice {program : Program} {budget : Nat} {before after : Machine α σ}
    {other : Machine β τ} {executed : List Instruction} {ending : Break}
    (related : coupling.Related before other)
    (slice : Machine.Slice first program budget before executed ending after)
    (within : coupling.within after.backend) :
    ∃ otherAfter, Machine.Slice second program budget other executed ending otherAfter ∧
      coupling.Related after otherAfter := by
  induction slice generalizing other with
  | done finished =>
      rw [related.processor.counter] at finished
      exact ⟨other, .done finished, related⟩
  | time next =>
      rw [related.processor.counter] at next
      exact ⟨other, .time next, related⟩
  | restart next attempted =>
      obtain ⟨otherAfter, otherAttempted, otherRelated⟩ :=
        coupling.attempt related attempted within
      rw [related.processor.counter] at next
      exact ⟨otherAfter, .restart next otherAttempted, otherRelated⟩
  | step next attempted slice inductionHypothesis =>
      obtain ⟨otherMiddle, otherAttempted, middleRelated⟩ :=
        coupling.attempt related attempted (coupling.within_of_slice slice within)
      obtain ⟨otherAfter, otherSlice, otherRelated⟩ := inductionHypothesis middleRelated within
      rw [related.processor.counter] at next
      exact ⟨otherAfter, .step next otherAttempted otherSlice, otherRelated⟩

end Coupling

end Garbling
