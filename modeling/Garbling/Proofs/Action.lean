import Mathlib
import Garbling.Machine.Execution

/-!
# Running actions

What an action comes to from a given state. An action succeeds exactly if its parts succeed
one after the other.
-/

namespace Garbling

/-- Both parts of a computation that succeeds have succeeded. -/
theorem except_bind_eq_ok {ε α β : Type} {outcome : Except ε α} {next : α → Except ε β}
    {result : β} :
    (outcome >>= next) = .ok result ↔ ∃ value, outcome = .ok value ∧ next value = .ok result := by
  cases outcome <;> simp [bind, Except.bind]

theorem except_pure_eq_ok {ε α : Type} {value result : α} :
    (pure value : Except ε α) = .ok result ↔ value = result := by
  simp [pure, Except.pure]

namespace Action

variable {σ α β : Type}

/-- The outcome of an action and the state that it leaves behind. -/
def runFrom (action : Action σ α) (state : σ) : Except Error α × σ := action state

@[simp] theorem runFrom_pure (value : α) (state : σ) :
    (pure value : Action σ α).runFrom state = (.ok value, state) := rfl

@[simp] theorem runFrom_throw (error : Error) (state : σ) :
    (throw error : Action σ α).runFrom state = (.error error, state) := rfl

@[simp] theorem runFrom_get (state : σ) : (get : Action σ σ).runFrom state = (.ok state, state) :=
  rfl

@[simp] theorem runFrom_modify (change : σ → σ) (state : σ) :
    (modify change : Action σ PUnit).runFrom state = (.ok (), change state) := rfl

@[simp] theorem runFrom_modifyGet (change : σ → α × σ) (state : σ) :
    (modifyGet change : Action σ α).runFrom state = (.ok (change state).1, (change state).2) := rfl

theorem runFrom_bind (action : Action σ α) (next : α → Action σ β) (state : σ) :
    (action >>= next).runFrom state =
      match action.runFrom state with
      | (.ok value, state) => (next value).runFrom state
      | (.error error, state) => (.error error, state) := by
  change ExceptT.bindCont next (action state).1 (action state).2 = _
  simp only [runFrom]
  rcases action state with ⟨_ | value, state⟩ <;> rfl

@[simp] theorem runFrom_get_bind (next : σ → Action σ β) (state : σ) :
    (get >>= next).runFrom state = (next state).runFrom state := by
  rw [runFrom_bind, runFrom_get]

theorem runFrom_bind_of_ok {action : Action σ α} {next : α → Action σ β} {state middle : σ}
    {value : α} (first : action.runFrom state = (.ok value, middle)) :
    (action >>= next).runFrom state = (next value).runFrom middle := by
  rw [runFrom_bind, first]

/-- Both parts of an action that succeeds have succeeded. -/
theorem runFrom_bind_eq_ok {action : Action σ α} {next : α → Action σ β} {state final : σ}
    {result : β} :
    (action >>= next).runFrom state = (.ok result, final) ↔
      ∃ value middle, action.runFrom state = (.ok value, middle) ∧
        (next value).runFrom middle = (.ok result, final) := by
  rw [runFrom_bind]
  rcases action.runFrom state with ⟨_ | value, middle⟩ <;> simp

theorem runFrom_pure_eq_ok {value result : α} {state final : σ} :
    (pure value : Action σ α).runFrom state = (.ok result, final) ↔
      value = result ∧ final = state := by
  simp [eq_comm]

theorem runFrom_modify_eq_ok {change : σ → σ} {state final : σ} {result : PUnit} :
    (modify change : Action σ PUnit).runFrom state = (.ok result, final) ↔
      final = change state := by
  simp [eq_comm]

theorem runFrom_map_eq_ok {change : α → β} {action : Action σ α} {state final : σ} {result : β} :
    (change <$> action).runFrom state = (.ok result, final) ↔
      ∃ value, action.runFrom state = (.ok value, final) ∧ change value = result := by
  rw [← bind_pure_comp, runFrom_bind_eq_ok]
  simp

end Action

namespace Machine

variable {wire state result : Type} {machine after : Machine wire state}

theorem runFrom_perform_eq_ok {action : Action state result} {value : result} :
    (perform action).runFrom machine = (.ok value, after) ↔
      ∃ backend, action.runFrom machine.backend = (.ok value, backend) ∧
        after = { machine with backend } := by
  have outcome : (perform action).runFrom machine =
      ((action.runFrom machine.backend).1,
        { machine with backend := (action.runFrom machine.backend).2 }) := rfl
  rw [outcome]
  rcases action.runFrom machine.backend with ⟨found, backend⟩
  simp only [Prod.mk.injEq]
  grind

theorem runFrom_checked_eq_ok (outcome : Except ExecutionError result) {value : result} :
    (checked outcome).runFrom machine = (.ok value, after) ↔
      outcome = .ok value ∧ after = machine := by
  cases outcome <;> simp [checked, eq_comm]

theorem runFrom_read_eq_ok {register : Register} {value : wire} :
    (read register).runFrom machine = (.ok value, after) ↔
      machine.processor.read register = .ok value ∧ after = machine :=
  runFrom_checked_eq_ok (machine.processor.read register)

theorem runFrom_readAll_eq_ok {registers : List Register} {values : List wire} :
    (readAll registers).runFrom machine = (.ok values, after) ↔
      machine.processor.readAll registers = .ok values ∧ after = machine :=
  runFrom_checked_eq_ok (machine.processor.readAll registers)

theorem runFrom_readClear_eq_ok {register : Register} {value : Option UInt64} :
    (readClear register).runFrom machine = (.ok value, after) ↔
      ∃ processor, machine.processor.readClear register = .ok (value, processor) ∧
        after = { machine with processor } := by
  simp only [readClear, Action.runFrom_get_bind, Action.runFrom_bind_eq_ok, runFrom_checked_eq_ok,
    Action.runFrom_modify_eq_ok, Action.runFrom_pure_eq_ok]
  grind

/-- What is done with the value of a clear register is left out if the value is not open. -/
theorem runFrom_readClear_then_eq_ok {register : Register}
    {body : UInt64 → Action (Machine wire state) Unit} :
    (do if let some value ← readClear register then body value :
        Action (Machine wire state) Unit).runFrom machine = (.ok (), after) ↔
      ∃ found processor, machine.processor.readClear register = .ok (found, processor) ∧
        match found with
        | none => after = { machine with processor }
        | some value => (body value).runFrom { machine with processor } = (.ok (), after) := by
  simp only [Action.runFrom_bind_eq_ok, runFrom_readClear_eq_ok]
  refine exists_congr fun found => ?_
  constructor
  · rintro ⟨_, ⟨processor, clear, rfl⟩, success⟩
    refine ⟨processor, clear, ?_⟩
    cases found with
    | none => exact (Action.runFrom_pure_eq_ok.mp success).2
    | some value => exact success
  · rintro ⟨processor, clear, success⟩
    refine ⟨_, ⟨processor, clear, rfl⟩, ?_⟩
    cases found with
    | none => exact Action.runFrom_pure_eq_ok.mpr ⟨rfl, success⟩
    | some value => exact success

theorem runFrom_write_eq_ok {register : Register} {value : wire} {result : Unit} :
    (write register value).runFrom machine = (.ok result, after) ↔
      after = { machine with processor := machine.processor.write register value } := by
  simp [write, eq_comm]

theorem runFrom_writeClear_eq_ok {register : Register} {clear : Clear} {result : Unit} :
    (writeClear register clear).runFrom machine = (.ok result, after) ↔
      after = { machine with processor := machine.processor.writeClear register clear } := by
  simp [writeClear, eq_comm]

theorem runFrom_jump_eq_ok {target : UInt64} {result : Unit} :
    (jump target).runFrom machine = (.ok result, after) ↔
      after = { machine with
        processor := { machine.processor with counter := target.toNat } } := by
  simp [jump, eq_comm]

end Machine

end Garbling
