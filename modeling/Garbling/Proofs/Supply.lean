import Mathlib
import Garbling.Proofs.ProgramFailure

/-!
# More inputs of the evaluator

The reference interpreter does not notice inputs that it does not take. So with more inputs of the
evaluator it executes the same instructions, and goes on where it would lack one.
-/

namespace Garbling

namespace Reference

variable {program : Program} {reference before middle after final reached : Reference}
  {instruction last : Instruction} {path : List Instruction} {error : ExecutionError}

/-- The interpreter with more inputs of the evaluator. -/
def supplied (reference : Reference) (more : List Bool) : Reference :=
  { reference with evaluatorInputs := reference.evaluatorInputs ++ more }

theorem step_supplied (success : reference.step instruction = .ok after) (more : List Bool) :
    (reference.supplied more).step instruction = .ok (after.supplied more) := by
  cases instruction with
  | garblerInput dst =>
      simp only [step] at success
      split at success
      · cases success
      · next bit rest held =>
          cases success
          simp only [step, supplied, held]
          rfl
  | evaluatorInput dst =>
      simp only [step] at success
      split at success
      · cases success
      · next bit rest held =>
          cases success
          simp only [step, supplied, held, List.cons_append]
          rfl
  | xor dst lhs rhs | and dst lhs rhs =>
      simp only [step, except_bind_eq_ok, except_pure_eq_ok] at success ⊢
      obtain ⟨left, leftRead, right, rightRead, rfl⟩ := success
      exact ⟨left, leftRead, right, rightRead, rfl⟩
  | not dst src =>
      simp only [step, except_bind_eq_ok, except_pure_eq_ok] at success ⊢
      obtain ⟨value, valueRead, rfl⟩ := success
      exact ⟨value, valueRead, rfl⟩
  | reveal dst src | output src =>
      simp only [step, except_bind_eq_ok, except_pure_eq_ok] at success ⊢
      obtain ⟨bits, bitsRead, rfl⟩ := success
      exact ⟨bits, bitsRead, rfl⟩
  | constant dst value | jump target =>
      cases success
      rfl
  | store src base offset =>
      obtain ⟨bit, chosen, bitRead, clear, within, rfl⟩ := step_store_eq_ok.mp success
      exact step_store_eq_ok.mpr ⟨bit, chosen, bitRead, clear, within, rfl⟩
  | load dst base offset =>
      obtain ⟨chosen, bit, clear, held, rfl⟩ := step_load_eq_ok.mp success
      exact step_load_eq_ok.mpr ⟨chosen, bit, clear, held, rfl⟩
  | jumpIfZero condition target =>
      simp only [step, except_bind_eq_ok] at success ⊢
      obtain ⟨value, clear, jumped⟩ := success
      refine ⟨value, clear, ?_⟩
      split at jumped
      · next zero =>
          cases jumped
          rw [if_pos zero]
          rfl
      · next nonzero =>
          cases jumped
          rw [if_neg nonzero]
          rfl

/-- With more inputs of the evaluator the interpreter executes the same instructions. -/
theorem Executes.supplied (executes : Executes program before path after) (more : List Bool) :
    Executes program (before.supplied more) path (after.supplied more) := by
  induction executes with
  | refl => exact .refl
  | step next success others inductionHypothesis =>
      exact .step next (step_supplied success more) inductionHypothesis

/-- An instruction takes inputs of the evaluator only. -/
theorem evaluatorInputs_of_step (success : reference.step instruction = .ok after) :
    after.evaluatorInputs <:+ reference.evaluatorInputs := by
  cases instruction with
  | garblerInput dst =>
      simp only [step] at success
      split at success
      · cases success
      · cases success
        exact List.suffix_rfl
  | evaluatorInput dst =>
      simp only [step] at success
      split at success
      · cases success
      · next bit rest held =>
          cases success
          rw [held]
          exact List.suffix_cons bit rest
  | xor dst lhs rhs | and dst lhs rhs =>
      simp only [step, except_bind_eq_ok, except_pure_eq_ok] at success
      obtain ⟨left, _, right, _, rfl⟩ := success
      exact List.suffix_rfl
  | not dst src =>
      simp only [step, except_bind_eq_ok, except_pure_eq_ok] at success
      obtain ⟨value, _, rfl⟩ := success
      exact List.suffix_rfl
  | reveal dst src | output src =>
      simp only [step, except_bind_eq_ok, except_pure_eq_ok] at success
      obtain ⟨bits, _, rfl⟩ := success
      exact List.suffix_rfl
  | constant dst value | jump target =>
      cases success
      exact List.suffix_rfl
  | store src base offset =>
      obtain ⟨bit, chosen, _, _, _, rfl⟩ := step_store_eq_ok.mp success
      exact List.suffix_rfl
  | load dst base offset =>
      obtain ⟨chosen, bit, _, _, rfl⟩ := step_load_eq_ok.mp success
      exact List.suffix_rfl
  | jumpIfZero condition target =>
      simp only [step, except_bind_eq_ok] at success
      obtain ⟨value, _, jumped⟩ := success
      split at jumped <;> cases jumped <;> exact List.suffix_rfl

theorem Executes.evaluatorInputs_suffix (executes : Executes program before path after) :
    after.evaluatorInputs <:+ before.evaluatorInputs := by
  induction executes with
  | refl => exact List.suffix_rfl
  | step next success others inductionHypothesis =>
      have taken := evaluatorInputs_of_step success
      exact inductionHypothesis.trans taken

/-- What finishes goes on from every state that is reached on the way. -/
theorem Finishes.after_executes {whole : List Instruction}
    (finishes : Finishes program before whole final)
    (executes : Executes program before path middle) :
    ∃ rest, whole = path ++ rest ∧ Finishes program middle rest final := by
  induction executes generalizing whole with
  | refl => exact ⟨whole, rfl, finishes⟩
  | step next success others inductionHypothesis =>
      obtain ⟨executes, finished⟩ := finishes
      cases executes with
      | refl => cases finished.symm.trans next
      | step found succeeds executes =>
          cases found.symm.trans next
          cases succeeds.symm.trans success
          obtain ⟨rest, rfl, left⟩ := inductionHypothesis ⟨executes, finished⟩
          exact ⟨rest, rfl, left⟩

theorem read_ne (register : Register) :
    reference.read register ≠ .error .missingEvaluatorInput := by
  unfold read
  split <;> nofun

theorem readAll_ne (registers : List Register) :
    registers.mapM reference.read ≠ .error .missingEvaluatorInput := by
  induction registers with
  | nil => nofun
  | cons register rest inductionHypothesis =>
      simp only [List.mapM_cons, ne_eq, except_bind_eq_error, ↓except_bind_pure_eq_error, not_or,
        not_exists, not_and]
      exact ⟨read_ne register, fun _ _ => inductionHypothesis⟩

theorem readClear_ne (register : Register) :
    reference.readClear register ≠ .error .missingEvaluatorInput := by
  unfold readClear
  split <;> nofun

theorem address_ne (memory : Memory Bool) (base offset : UInt64) :
    memory.address base offset ≠ .error .missingEvaluatorInput := by
  simp only [Memory.address]
  split <;> simp

theorem load_ne (memory : Memory Bool) (base offset : UInt64) :
    memory.load base offset ≠ .error .missingEvaluatorInput := by
  simp only [Memory.load, ne_eq, except_bind_eq_error, not_or, not_exists, not_and]
  refine ⟨address_ne memory base offset, fun address _ => ?_⟩
  split <;> simp [pure, Except.pure, throw, throwThe, MonadExceptOf.throw]

/-- Only an instruction that takes an input of the evaluator can lack one. -/
theorem evaluatorInput_of_step
    (failure : reference.step instruction = .error .missingEvaluatorInput) :
    reference.evaluatorInputs = [] ∧ ∃ dst, instruction = .evaluatorInput dst := by
  cases instruction with
  | garblerInput dst =>
      simp only [step] at failure
      split at failure <;> cases failure
  | evaluatorInput dst =>
      simp only [step] at failure
      split at failure
      · next nothing => exact ⟨nothing, dst, rfl⟩
      · cases failure
  | xor dst lhs rhs | and dst lhs rhs =>
      simp only [step, except_bind_eq_error, ↓except_bind_pure_eq_error, read_ne, and_false,
        exists_false, or_self] at failure
  | not dst src => exact absurd (except_bind_pure_eq_error.mp failure) (read_ne src)
  | reveal dst src | output src =>
      exact absurd (except_bind_pure_eq_error.mp failure) (readAll_ne src)
  | constant dst value | jump target => cases failure
  | store src base offset =>
      simp only [step, Memory.store, except_bind_eq_error, ↓except_bind_pure_eq_error, read_ne,
        readClear_ne, address_ne, and_false, exists_false, or_self] at failure
  | load dst base offset =>
      simp only [step, except_bind_eq_error, ↓except_bind_pure_eq_error, readClear_ne, load_ne,
        and_false, exists_false, or_self] at failure
  | jumpIfZero condition target =>
      simp only [step, except_bind_eq_error, readClear_ne, false_or] at failure
      obtain ⟨value, _, jumped⟩ := failure
      split at jumped <;> cases jumped

/-- Where the interpreter lacks an input of the evaluator, it goes on with more inputs by taking
some of them. -/
theorem Fails.takes_more (fails : Fails program before path last .missingEvaluatorInput reached)
    {more : List Bool} {whole : List Instruction}
    (finishes : Finishes program (before.supplied more) whole final) :
    final.evaluatorInputs.length < more.length := by
  obtain ⟨nothing, dst, rfl⟩ := evaluatorInput_of_step fails.failure
  obtain ⟨rest, rfl, executes, finished⟩ := finishes.after_executes (fails.executes.supplied more)
  have held : (reached.supplied more).advance.evaluatorInputs = more :=
    congrArg (· ++ more) nothing
  cases executes with
  | refl => cases finished.symm.trans fails.next
  | step next success others =>
      cases next.symm.trans fails.next
      simp only [step, held] at success
      split at success
      · cases success
      · next bit left =>
          cases success
          have fewer := others.evaluatorInputs_suffix.length_le
          exact Nat.lt_succ_of_le fewer

end Reference

end Garbling
