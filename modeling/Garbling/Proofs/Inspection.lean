import Mathlib
import Garbling.Proofs.Related
import Garbling.Proofs.Restart

/-!
# What instructions need

An instruction needs what it reads: wires in secret registers, values in clear registers, cells of
the memory. If something of that is missing then the instruction fails, whatever the backend is, and
it fails in the same way on related machines. Besides, an instruction may lack an input. These are
all the reasons for which the reference interpreter fails, so a plain machine fails for the same
reason, unless it has to wait.
-/

namespace Garbling

theorem except_bind_eq_error {ε α β : Type} {outcome : Except ε α} {next : α → Except ε β}
    {error : ε} :
    (outcome >>= next) = .error error ↔
      outcome = .error error ∨ ∃ value, outcome = .ok value ∧ next value = .error error := by
  cases outcome <;> simp [bind, Except.bind]

/-- What only returns something of the result of a first part fails where this part does. -/
theorem except_bind_pure_eq_error {ε α β : Type} {outcome : Except ε α} {returned : α → β}
    {error : ε} :
    (outcome >>= fun value => pure (returned value)) = .error error ↔ outcome = .error error := by
  cases outcome <;> simp [bind, Except.bind, pure, Except.pure]

theorem Action.runFrom_bind_of_error {σ α β : Type} {action : Action σ α} {next : α → Action σ β}
    {state middle : σ} {error : Error} (first : action.runFrom state = (.error error, middle)) :
    (action >>= next).runFrom state = (.error error, middle) := by
  rw [runFrom_bind, first]

/-- A clear register that the reference interpreter cannot read cannot be read at all. -/
theorem Processor.Sound.readClear_of_unset {wire : Type} {processor : Processor wire}
    (sound : processor.Sound) {register : Register}
    (held : (processor.clears.map processor.log.lookup)[register.toNat]?.join = none) :
    processor.readClear register = .error (.uninitializedClear register) := by
  rw [Array.getElem?_map] at held
  unfold readClear
  rw [Array.getD_eq_getD_getElem?]
  cases place : processor.clears[register.toNat]? with
  | none => rfl
  | some clear =>
      simp only [place, Option.map_some, Option.join_some] at held
      cases clear with
      | unset => rfl
      | constant value => cases held
      | revealed index =>
          have inside := sound.logged _ index place
          have known := sound.known index _ (Array.getElem?_eq_getElem inside)
          simp only [RevealLog.lookup, Array.getElem?_eq_getElem inside, Option.join_some] at held
          simp [held] at known

namespace Machine

/-- Whether there is all that an instruction reads. A memory cell is not looked at as long as its
address is not known. -/
def inspect {wire state : Type} (machine : Machine wire state) :
    Instruction → Except ExecutionError Unit
  | .garblerInput _ | .evaluatorInput _ | .constant .. | .jump _ => return
  | .xor _ lhs rhs | .and _ lhs rhs => do
      let _ ← machine.processor.read lhs
      let _ ← machine.processor.read rhs
  | .not _ src => do
      let _ ← machine.processor.read src
  | .reveal _ src | .output src => do
      let _ ← machine.processor.readAll src
  | .store src base offset => do
      let value ← machine.processor.read src
      let (found, _) ← machine.processor.readClear offset
      if let some offset := found then
        let _ ← machine.memory.store base offset value
  | .load _ base offset => do
      let (found, _) ← machine.processor.readClear offset
      if let some offset := found then
        let _ ← machine.memory.load base offset
  | .jumpIfZero condition _ => do
      let _ ← machine.processor.readClear condition

section

variable {wire state result : Type} {machine : Machine wire state} {error : ExecutionError}

theorem runFrom_checked_of_error {outcome : Except ExecutionError result}
    (failure : outcome = .error error) :
    (checked outcome).runFrom machine = (.error (.execution error), machine) := by
  rw [failure]
  rfl

theorem runFrom_read_of_error {register : Register}
    (failure : machine.processor.read register = .error error) :
    (read register).runFrom machine = (.error (.execution error), machine) := by
  rw [read, Action.runFrom_get_bind]
  exact runFrom_checked_of_error failure

theorem runFrom_readAll_of_error {registers : List Register}
    (failure : machine.processor.readAll registers = .error error) :
    (readAll registers).runFrom machine = (.error (.execution error), machine) := by
  rw [readAll, Action.runFrom_get_bind]
  exact runFrom_checked_of_error failure

theorem runFrom_readClear_of_error {register : Register}
    (failure : machine.processor.readClear register = .error error) :
    (readClear register).runFrom machine = (.error (.execution error), machine) := by
  rw [readClear, Action.runFrom_get_bind]
  exact Action.runFrom_bind_of_error (runFrom_checked_of_error failure)

theorem runFrom_perform_of_error {action : Action state result} {fault : Error}
    (failure : action.runFrom machine.backend = (.error fault, machine.backend)) :
    (perform action).runFrom machine = (.error fault, machine) := by
  change ((action.runFrom machine.backend).1,
    { machine with backend := (action.runFrom machine.backend).2 }) = _
  rw [failure]

variable {backend : Backend wire state} {instruction : Instruction}

/-- An instruction that misses something fails, and changes nothing. -/
theorem step_of_inspect (missing : machine.inspect instruction = .error error) :
    (step backend instruction).runFrom machine = (.error (.execution error), machine) := by
  have opened {register : Register} {address : UInt64} {processor : Processor wire}
      (clear : machine.processor.readClear register = .ok (some address, processor)) :
      (readClear register).runFrom machine = (.ok (some address), machine) := by
    obtain rfl | ⟨none, _⟩ := Processor.readClear_ok clear
    · exact runFrom_readClear_eq_ok.mpr ⟨_, clear, rfl⟩
    · cases none
  cases instruction with
  | garblerInput dst | evaluatorInput dst | constant dst value | jump target => cases missing
  | xor dst lhs rhs | and dst lhs rhs =>
      simp only [inspect, except_bind_eq_error, ↓except_bind_pure_eq_error] at missing
      rcases missing with failure | ⟨left, leftRead, failure⟩
      · exact Action.runFrom_bind_of_error (runFrom_read_of_error failure)
      · simp only [step, Action.runFrom_bind_of_ok (runFrom_read_eq_ok.mpr ⟨leftRead, rfl⟩)]
        exact Action.runFrom_bind_of_error (runFrom_read_of_error failure)
  | not dst src =>
      simp only [inspect, except_bind_pure_eq_error] at missing
      exact Action.runFrom_bind_of_error (runFrom_read_of_error missing)
  | reveal dst src | output src =>
      simp only [inspect, except_bind_pure_eq_error] at missing
      exact Action.runFrom_bind_of_error (runFrom_readAll_of_error missing)
  | store src base offset =>
      simp only [inspect, except_bind_eq_error] at missing
      rcases missing with failure |
        ⟨value, valueRead, failure | ⟨⟨found, processor⟩, clear, failure⟩⟩
      · exact Action.runFrom_bind_of_error (runFrom_read_of_error failure)
      · simp only [step, Action.runFrom_bind_of_ok (runFrom_read_eq_ok.mpr ⟨valueRead, rfl⟩)]
        exact Action.runFrom_bind_of_error (runFrom_readClear_of_error failure)
      · cases found with
        | none => cases failure
        | some address =>
            simp only [except_bind_pure_eq_error] at failure
            simp only [step, Action.runFrom_bind_of_ok (runFrom_read_eq_ok.mpr ⟨valueRead, rfl⟩),
              Action.runFrom_bind_of_ok (opened clear), Action.runFrom_get_bind]
            exact Action.runFrom_bind_of_error (runFrom_checked_of_error failure)
  | load dst base offset =>
      simp only [inspect, except_bind_eq_error] at missing
      rcases missing with failure | ⟨⟨found, processor⟩, clear, failure⟩
      · exact Action.runFrom_bind_of_error (runFrom_readClear_of_error failure)
      · cases found with
        | none => cases failure
        | some address =>
            simp only [except_bind_pure_eq_error] at failure
            simp only [step, Action.runFrom_bind_of_ok (opened clear), Action.runFrom_get_bind]
            exact Action.runFrom_bind_of_error (runFrom_checked_of_error failure)
  | jumpIfZero condition target =>
      simp only [inspect, except_bind_pure_eq_error] at missing
      exact Action.runFrom_bind_of_error (runFrom_readClear_of_error missing)

/-- An instruction that fails is attempted in vain. -/
theorem attempt_of_step_error {after : Machine wire state} {fault : Error}
    (fails : (step backend instruction).runFrom
      { machine with processor := machine.processor.advance } = (.error fault, after)) :
    attempt backend instruction machine = (.error fault, after) := by
  unfold attempt
  rw [show step backend instruction { machine with processor := machine.processor.advance } =
    _ from fails]

/-- A slice fails at an instruction that is attempted in vain. -/
theorem execute_of_attempt_error {program : Program} {after : Machine wire state} {fault : Error}
    (next : program.instructions[machine.processor.counter]? = some instruction)
    (failed : attempt backend instruction machine = (.error fault, after)) (budget : Nat) :
    execute backend program (budget + 1) machine = (.error fault, after) := by
  unfold execute
  simp only [next, failed]

end

end Machine

section

variable {α β : Type} {wire : α → β → Prop} {entry : Option UInt64 → Option UInt64 → Prop}
  {error : ExecutionError}

namespace Processor.Related

variable {first : Processor α} {second : Processor β}

/-- A register that is empty in the first processor is empty in the second one. -/
theorem read_error (related : Related wire entry first second) {register : Register}
    (failure : first.read register = .error error) : second.read register = .error error := by
  have held := related.secrets.held register.toNat
  unfold Processor.read at failure ⊢
  generalize first.secrets[register.toNat]?.join = one at failure held
  generalize second.secrets[register.toNat]?.join = two at held ⊢
  cases held with
  | none =>
      cases failure
      rfl
  | some same => cases failure

theorem readAll_error (related : Related wire entry first second) {registers : List Register}
    (failure : first.readAll registers = .error error) :
    second.readAll registers = .error error := by
  unfold Processor.readAll at failure ⊢
  induction registers with
  | nil => cases failure
  | cons register rest inductionHypothesis =>
      rw [List.mapM_cons, except_bind_eq_error] at failure ⊢
      rcases failure with failure | ⟨left, success, failure⟩
      · exact .inl (related.read_error failure)
      · obtain ⟨right, found, _⟩ := related.read success
        simp only [except_bind_pure_eq_error] at failure ⊢
        exact .inr ⟨right, found, inductionHypothesis failure⟩

theorem readClear_error (related : Related wire entry first second) {register : Register}
    (failure : first.readClear register = .error error) :
    second.readClear register = .error error := by
  unfold Processor.readClear at failure ⊢
  rw [← related.clears]
  split at failure
  · cases failure
    rfl
  · cases failure
  · split at failure <;> cases failure

end Processor.Related

namespace Memory

variable {first : Memory α} {second : Memory β} {base offset : UInt64}

/-- What cannot be stored in the first memory cannot be stored in the second one. -/
theorem store_error (related : CellsRelated wire first.cells second.cells) {left : α}
    (failure : first.store base offset left = .error error) (right : β) :
    second.store base offset right = .error error := by
  simp only [Memory.store, except_bind_pure_eq_error] at failure ⊢
  rwa [← address_congr related]

/-- What cannot be loaded from the first memory cannot be loaded from the second one. -/
theorem load_error (related : CellsRelated wire first.cells second.cells)
    (failure : first.load base offset = .error error) :
    second.load base offset = .error error := by
  rw [Memory.load, except_bind_eq_error] at failure ⊢
  rw [← address_congr related]
  rcases failure with failure | ⟨address, inside, failure⟩
  · exact .inl failure
  · refine .inr ⟨address, inside, ?_⟩
    have held : Option.Rel wire (first.get? address) (second.get? address) :=
      related.held address
    generalize first.get? address = one at failure held
    generalize second.get? address = two at held ⊢
    cases held with
    | none =>
        cases failure
        rfl
    | some same => cases failure

end Memory

namespace Machine

variable {σ τ : Type} {state : σ → τ → Prop} {first : Machine α σ} {second : Machine β τ}
  {instruction : Instruction}

/-- Machines stay related when they move on to the next instruction. -/
theorem Related.advance (related : Related wire entry state first second) :
    Related wire entry state { first with processor := first.processor.advance }
      { second with processor := second.processor.advance } :=
  ⟨related.processor.advance, related.memory, related.backend⟩

/-- What an instruction misses on the first machine it misses on the second one. -/
theorem Related.inspect (related : Related wire entry state first second)
    (missing : first.inspect instruction = .error error) :
    second.inspect instruction = .error error := by
  have processor := related.processor
  cases instruction with
  | garblerInput dst | evaluatorInput dst | constant dst value | jump target => cases missing
  | xor dst lhs rhs | and dst lhs rhs =>
      simp only [Machine.inspect, except_bind_eq_error, ↓except_bind_pure_eq_error] at missing ⊢
      rcases missing with failure | ⟨left, success, failure⟩
      · exact .inl (processor.read_error failure)
      · obtain ⟨right, found, _⟩ := processor.read success
        exact .inr ⟨right, found, processor.read_error failure⟩
  | not dst src =>
      simp only [Machine.inspect, except_bind_pure_eq_error] at missing ⊢
      exact processor.read_error missing
  | reveal dst src | output src =>
      simp only [Machine.inspect, except_bind_pure_eq_error] at missing ⊢
      exact processor.readAll_error missing
  | store src base offset =>
      simp only [Machine.inspect, except_bind_eq_error] at missing ⊢
      rcases missing with failure | ⟨left, success, failure | ⟨⟨found, rest⟩, clear, failure⟩⟩
      · exact .inl (processor.read_error failure)
      · obtain ⟨right, found, _⟩ := processor.read success
        exact .inr ⟨right, found, .inl (processor.readClear_error failure)⟩
      · obtain ⟨right, held, _⟩ := processor.read success
        obtain ⟨after, same, _⟩ := processor.readClear clear
        refine .inr ⟨right, held, .inr ⟨(found, after), same, ?_⟩⟩
        cases found with
        | none => cases failure
        | some address =>
            simp only [except_bind_pure_eq_error] at failure ⊢
            exact Memory.store_error related.memory failure right
  | load dst base offset =>
      simp only [Machine.inspect, except_bind_eq_error] at missing ⊢
      rcases missing with failure | ⟨⟨found, rest⟩, clear, failure⟩
      · exact .inl (processor.readClear_error failure)
      · obtain ⟨after, same, _⟩ := processor.readClear clear
        refine .inr ⟨(found, after), same, ?_⟩
        cases found with
        | none => cases failure
        | some address =>
            simp only [except_bind_pure_eq_error] at failure ⊢
            exact Memory.load_error related.memory failure
  | jumpIfZero condition target =>
      simp only [Machine.inspect, except_bind_pure_eq_error] at missing ⊢
      exact processor.readClear_error missing

end Machine

end

namespace Plain

variable (known : Bool) {plain : Plain}

theorem runFrom_garblerInput_of_nil (held : plain.garblerInputs = []) :
    (backend known).garblerInput.runFrom plain =
      (.error (.execution .missingGarblerInput), plain) := by
  rw [backend, Action.runFrom_get_bind, held]
  rfl

theorem runFrom_evaluatorInput_of_nil (held : plain.evaluatorInputs = []) :
    (backend known).evaluatorInput.runFrom plain =
      (.error (.execution .missingEvaluatorInput), plain) := by
  rw [backend, Action.runFrom_get_bind, held]
  rfl

end Plain

namespace Machine

variable {machine : Machine Bool Plain} {instruction : Instruction} {error : ExecutionError}

theorem readClear_reference_error (sound : machine.processor.Sound) {register : Register}
    (failure : machine.reference.readClear register = .error error) :
    machine.processor.readClear register = .error error := by
  unfold Reference.readClear at failure
  split at failure
  · cases failure
  · next held =>
      cases failure
      exact sound.readClear_of_unset held

/-- Why an instruction fails on a plain machine: something that it reads is missing, or an input. -/
inductive Lacks (machine : Machine Bool Plain) : Instruction → ExecutionError → Prop
  | operand {instruction : Instruction} {error : ExecutionError}
      (missing : machine.inspect instruction = .error error) : Lacks machine instruction error
  | garblerInput {dst : Register} (missing : machine.backend.garblerInputs = []) :
      Lacks machine (.garblerInput dst) .missingGarblerInput
  | evaluatorInput {dst : Register} (missing : machine.backend.evaluatorInputs = []) :
      Lacks machine (.evaluatorInput dst) .missingEvaluatorInput

/-- An instruction that lacks something fails, and changes nothing. -/
theorem Lacks.fails (lacks : machine.Lacks instruction error) :
    (step (Plain.backend true) instruction).runFrom machine =
      (.error (.execution error), machine) := by
  cases lacks with
  | operand missing => exact step_of_inspect missing
  | garblerInput missing =>
      exact Action.runFrom_bind_of_error
        (runFrom_perform_of_error (Plain.runFrom_garblerInput_of_nil true missing))
  | evaluatorInput missing =>
      exact Action.runFrom_bind_of_error
        (runFrom_perform_of_error (Plain.runFrom_evaluatorInput_of_nil true missing))

/-- A machine that lacks something for the next instruction only moves its program counter. -/
theorem Lacks.attempt_fails
    (lacks : Lacks { machine with processor := machine.processor.advance } instruction error) :
    attempt (Plain.backend true) instruction machine =
      (.error (.execution error), { machine with processor := machine.processor.advance }) :=
  attempt_of_step_error lacks.fails

/-- Where the reference interpreter fails a plain machine lacks something, or it waits. -/
theorem lacks_of_reference (sound : machine.processor.Sound)
    (failure : machine.reference.step instruction = .error error) :
    machine.Lacks instruction error ∨
    Completes (Plain.backend true) instruction machine
      { machine with processor := { machine.processor with taint := ⟨true⟩ } } := by
  cases instruction with
  | garblerInput dst =>
      simp only [Reference.step] at failure
      split at failure
      · next held =>
          cases failure
          exact .inl (.garblerInput held)
      · cases failure
  | evaluatorInput dst =>
      simp only [Reference.step] at failure
      split at failure
      · next held =>
          cases failure
          exact .inl (.evaluatorInput held)
      · cases failure
  | xor dst lhs rhs | and dst lhs rhs =>
      simp only [Reference.step, except_bind_eq_error, ↓except_bind_pure_eq_error,
        read_reference] at failure
      refine .inl (.operand ?_)
      simp only [inspect, except_bind_eq_error, ↓except_bind_pure_eq_error]
      exact failure
  | not dst src =>
      simp only [Reference.step, except_bind_pure_eq_error, read_reference] at failure
      exact .inl (.operand (except_bind_pure_eq_error.mpr failure))
  | reveal dst src | output src =>
      simp only [Reference.step, except_bind_pure_eq_error, readAll_reference] at failure
      exact .inl (.operand (except_bind_pure_eq_error.mpr failure))
  | constant dst value | jump target => cases failure
  | store src base offset =>
      simp only [Reference.step, except_bind_eq_error, ↓except_bind_pure_eq_error,
        read_reference] at failure
      rcases failure with failure | ⟨bit, bitRead, failure | ⟨address, clear, failure⟩⟩
      · exact .inl (.operand (except_bind_eq_error.mpr (.inl failure)))
      · refine .inl (.operand (except_bind_eq_error.mpr (.inr ⟨bit, bitRead, ?_⟩)))
        exact except_bind_eq_error.mpr (.inl (readClear_reference_error sound failure))
      · rcases readClear_reference clear with found | waiting
        · refine .inl (.operand (except_bind_eq_error.mpr (.inr ⟨bit, bitRead, ?_⟩)))
          refine except_bind_eq_error.mpr (.inr ⟨_, found, ?_⟩)
          exact except_bind_eq_error.mpr (.inl failure)
        · exact .inr ⟨bit, none, _, bitRead, waiting, rfl⟩
  | load dst base offset =>
      simp only [Reference.step, except_bind_eq_error, ↓except_bind_pure_eq_error] at failure
      rcases failure with failure | ⟨address, clear, failure⟩
      · exact .inl (.operand
          (except_bind_eq_error.mpr (.inl (readClear_reference_error sound failure))))
      · rcases readClear_reference clear with found | waiting
        · refine .inl (.operand (except_bind_eq_error.mpr (.inr ⟨_, found, ?_⟩)))
          exact except_bind_eq_error.mpr (.inl failure)
        · exact .inr ⟨none, _, waiting, rfl⟩
  | jumpIfZero condition target =>
      simp only [Reference.step, except_bind_eq_error] at failure
      rcases failure with failure | ⟨value, clear, failure⟩
      · exact .inl (.operand
          (except_bind_eq_error.mpr (.inl (readClear_reference_error sound failure))))
      · split at failure <;> cases failure

end Machine

end Garbling
