import Mathlib
import Garbling.Machine.Plain
import Garbling.Proofs.Cells
import Garbling.Proofs.Operations

/-!
# The reference interpreter

What a program means, without labels, slices or restarts: wires are truth values, a revealed
value can be read at once, and inputs are taken in order from two lists. A plain machine
whose revealed values have to be opened first does the same as the reference interpreter,
apart from the restarts: an instruction that has to wait is executed later.
-/

namespace Garbling

/-- The state of the reference interpreter. -/
structure Reference where
  /-- The index of the next instruction. -/
  counter : Nat := 0
  secrets : Array (Option Bool)
  clears : Array (Option UInt64)
  memory : Memory Bool
  garblerInputs : List Bool
  evaluatorInputs : List Bool
  /-- The values revealed to both parties, in order. -/
  revealed : List UInt64 := []
  /-- The values revealed to the evaluator only, in order. -/
  outputs : List UInt64 := []

namespace Reference

/-- The interpreter at the start of a program. -/
def start (program : Program) (garblerInputs evaluatorInputs : List Bool) : Reference where
  secrets := .replicate program.secretRegisters none
  clears := .replicate program.clearRegisters none
  memory := program.memory
  garblerInputs := garblerInputs
  evaluatorInputs := evaluatorInputs

/-- The truth value in a secret register. -/
def read (reference : Reference) (register : Register) : Except ExecutionError Bool :=
  match reference.secrets[register.toNat]?.join with
  | some value => .ok value
  | none => .error (.uninitializedRegister register)

/-- The value in a clear register. -/
def readClear (reference : Reference) (register : Register) : Except ExecutionError UInt64 :=
  match reference.clears[register.toNat]?.join with
  | some value => .ok value
  | none => .error (.uninitializedClear register)

/-- Puts a truth value into a secret register. -/
def write (reference : Reference) (register : Register) (value : Bool) : Reference :=
  { reference with secrets := reference.secrets.setIfInBounds register.toNat (some value) }

/-- Puts a value into a clear register. -/
def writeClear (reference : Reference) (register : Register) (value : UInt64) : Reference :=
  { reference with clears := reference.clears.setIfInBounds register.toNat (some value) }

/-- Executes one instruction, the counter having been moved past it. -/
def step (reference : Reference) : Instruction → Except ExecutionError Reference
  | .garblerInput dst =>
      match reference.garblerInputs with
      | [] => .error .missingGarblerInput
      | bit :: garblerInputs => .ok ({ reference with garblerInputs }.write dst bit)
  | .evaluatorInput dst =>
      match reference.evaluatorInputs with
      | [] => .error .missingEvaluatorInput
      | bit :: evaluatorInputs => .ok ({ reference with evaluatorInputs }.write dst bit)
  | .xor dst lhs rhs => do
      return reference.write dst ((← reference.read lhs) ^^ (← reference.read rhs))
  | .and dst lhs rhs => do
      return reference.write dst ((← reference.read lhs) && (← reference.read rhs))
  | .not dst src => do return reference.write dst (!(← reference.read src))
  | .reveal dst src => do
      let value := Bits.value (← src.mapM reference.read)
      return { reference with revealed := reference.revealed ++ [value] }.writeClear dst value
  | .output src => do
      let value := Bits.value (← src.mapM reference.read)
      return { reference with outputs := reference.outputs ++ [value] }
  | .constant dst value => .ok (reference.writeClear dst value)
  | .store src base offset => do
      let value ← reference.read src
      let memory ← reference.memory.store base (← reference.readClear offset) value
      return { reference with memory }
  | .load dst base offset => do
      return reference.write dst (← reference.memory.load base (← reference.readClear offset))
  | .jumpIfZero condition target => do
      if (← reference.readClear condition) = 0 then
        return { reference with counter := target.toNat }
      return reference
  | .jump target => .ok { reference with counter := target.toNat }

section

variable {reference after : Reference} {src dst offset : Register} {base : UInt64}

/-- A store puts a bit into the cell at the sum of the base and the offset, if there is this cell. -/
theorem step_store_eq_ok : reference.step (.store src base offset) = .ok after ↔
    ∃ bit chosen, reference.read src = .ok bit ∧ reference.readClear offset = .ok chosen ∧
      base.toNat + chosen.toNat < reference.memory.cells.size ∧
        after = { reference with
          memory := reference.memory.put (base.toNat + chosen.toNat) bit } := by
  simp only [step, except_bind_eq_ok, except_pure_eq_ok, Memory.store_eq_ok_iff]
  constructor
  · rintro ⟨bit, bitRead, chosen, clear, _, ⟨within, rfl⟩, rfl⟩
    exact ⟨bit, chosen, bitRead, clear, within, rfl⟩
  · rintro ⟨bit, chosen, bitRead, clear, within, rfl⟩
    exact ⟨bit, bitRead, chosen, clear, _, ⟨within, rfl⟩, rfl⟩

/-- After a store the cell at the sum holds the bit, and every other cell holds what it held. -/
theorem get?_of_store (success : reference.step (.store src base offset) = .ok after) :
    ∃ bit chosen, reference.read src = .ok bit ∧ reference.readClear offset = .ok chosen ∧
      ∀ address, after.memory.get? address =
        if address = base.toNat + chosen.toNat then some bit
        else reference.memory.get? address := by
  obtain ⟨bit, chosen, bitRead, clear, within, rfl⟩ := step_store_eq_ok.mp success
  exact ⟨bit, chosen, bitRead, clear, reference.memory.get?_put bit within⟩

/-- A load gives the bit that the cell at the sum of the base and the offset holds. -/
theorem step_load_eq_ok : reference.step (.load dst base offset) = .ok after ↔
    ∃ chosen bit, reference.readClear offset = .ok chosen ∧
      reference.memory.get? (base.toNat + chosen.toNat) = some bit ∧
        after = reference.write dst bit := by
  simp only [step, except_bind_eq_ok, except_pure_eq_ok, Memory.load_eq_ok_iff]
  constructor
  · rintro ⟨chosen, clear, bit, held, rfl⟩
    exact ⟨chosen, bit, clear, held, rfl⟩
  · rintro ⟨chosen, bit, clear, held, rfl⟩
    exact ⟨chosen, clear, bit, held, rfl⟩

end

/-- Moves the counter on to the next instruction. -/
def advance (reference : Reference) : Reference :=
  { reference with counter := reference.counter + 1 }

/-- The interpreter executes the given instructions one after the other. -/
inductive Executes (program : Program) : Reference → List Instruction → Reference → Prop
  | refl {reference : Reference} : Executes program reference [] reference
  | step {before middle after : Reference} {instruction : Instruction} {rest : List Instruction}
      (next : program.instructions[before.counter]? = some instruction)
      (success : before.advance.step instruction = .ok middle)
      (others : Executes program middle rest after) :
      Executes program before (instruction :: rest) after

/-- The interpreter executes the given instructions and arrives at the end of the program. -/
structure Finishes (program : Program) (before : Reference) (path : List Instruction)
    (after : Reference) : Prop where
  executes : Executes program before path after
  finished : program.instructions[after.counter]? = none

/-- What has been revealed stays so. -/
theorem length_revealed_le_of_step {reference after : Reference} {instruction : Instruction}
    (success : reference.step instruction = .ok after) :
    reference.revealed.length ≤ after.revealed.length := by
  cases instruction with
  | garblerInput dst | evaluatorInput dst =>
      simp only [step] at success
      split at success
      · cases success
      · cases success
        exact Nat.le_refl _
  | xor dst lhs rhs | and dst lhs rhs =>
      simp only [step, except_bind_eq_ok, except_pure_eq_ok] at success
      obtain ⟨left, _, right, _, rfl⟩ := success
      exact Nat.le_refl _
  | not dst src =>
      simp only [step, except_bind_eq_ok, except_pure_eq_ok] at success
      obtain ⟨value, _, rfl⟩ := success
      exact Nat.le_refl _
  | reveal dst src =>
      simp only [step, except_bind_eq_ok, except_pure_eq_ok] at success
      obtain ⟨bits, _, rfl⟩ := success
      simp [writeClear]
  | output src =>
      simp only [step, except_bind_eq_ok, except_pure_eq_ok] at success
      obtain ⟨bits, _, rfl⟩ := success
      exact Nat.le_refl _
  | constant dst value | jump target =>
      cases success
      exact Nat.le_refl _
  | store src base offset =>
      obtain ⟨bit, chosen, _, _, _, rfl⟩ := step_store_eq_ok.mp success
      exact Nat.le_refl _
  | load dst base offset =>
      obtain ⟨chosen, bit, _, _, rfl⟩ := step_load_eq_ok.mp success
      exact Nat.le_refl _
  | jumpIfZero condition target =>
      simp only [step, except_bind_eq_ok] at success
      obtain ⟨value, _, jumped⟩ := success
      split at jumped <;> cases jumped <;> exact Nat.le_refl _

theorem Executes.length_revealed_le {program : Program} {before after : Reference}
    {path : List Instruction} (executes : Executes program before path after) :
    before.revealed.length ≤ after.revealed.length := by
  induction executes with
  | refl => exact Nat.le_refl _
  | step next success others inductionHypothesis =>
      exact (length_revealed_le_of_step success).trans inductionHypothesis

end Reference

namespace RevealLog

/-- The value of a clear register, open or not. -/
def lookup (log : RevealLog) : Clear → Option UInt64
  | .unset => none
  | .constant value => some value
  | .revealed index => log.values[index]?.join

end RevealLog

namespace Machine

/-- What the reference interpreter knows of a plain machine. -/
def reference (machine : Machine Bool Plain) : Reference where
  counter := machine.processor.counter
  secrets := machine.processor.secrets
  clears := machine.processor.clears.map machine.processor.log.lookup
  memory := machine.memory
  garblerInputs := machine.backend.garblerInputs
  evaluatorInputs := machine.backend.evaluatorInputs
  revealed := machine.processor.log.values.toList.filterMap id
  outputs := machine.backend.outputs

/-- At the start nothing has been revealed, and no register is in use. -/
theorem reference_start (program : Program) (garblerInputs evaluatorInputs : List Bool) :
    (Machine.start program { garblerInputs, evaluatorInputs }).reference =
      .start program garblerInputs evaluatorInputs := by
  have clears : (Array.replicate program.clearRegisters Clear.unset).map
      (RevealLog.lookup {}) = .replicate program.clearRegisters none := by
    rw [Array.map_replicate]
    rfl
  simp only [reference, Machine.start, Program.processor, clears]
  rfl

end Machine

namespace Processor

/-- All revealed values are known, and the clear registers hold such values only. -/
structure Sound {wire : Type} (processor : Processor wire) : Prop where
  lowered : processor.taint = {}
  bounded : processor.log.opened ≤ processor.log.values.size
  known : ∀ (index : Nat) (found : Option UInt64), processor.log.values[index]? = some found →
    found.isSome
  logged : ∀ place index : Nat, processor.clears[place]? = some (.revealed index) →
    index < processor.log.values.size

namespace Sound

variable {wire : Type} {processor : Processor wire}

/-- A sound processor knows as many values as have been revealed. -/
theorem length_known (sound : processor.Sound) :
    (processor.log.values.toList.filterMap id).length = processor.log.values.size := by
  rw [← Array.length_toList, List.length_filterMap_eq_countP, List.countP_eq_length]
  intro value member
  obtain ⟨index, held⟩ := List.mem_iff_getElem?.mp member
  exact sound.known index value (by rwa [Array.getElem?_toList] at held)

theorem start (program : Program) : (program.processor : Processor wire).Sound where
  lowered := rfl
  bounded := Nat.le_refl _
  known index found held := by simp [Program.processor] at held
  logged place index held := by
    simp only [Program.processor, Array.getElem?_replicate] at held
    split at held
    · cases held
    · cases held

theorem write (sound : processor.Sound) (register : Register) (value : wire) :
    (processor.write register value).Sound :=
  ⟨sound.lowered, sound.bounded, sound.known, sound.logged⟩

theorem jump (sound : processor.Sound) (counter : Nat) : Sound { processor with counter } :=
  ⟨sound.lowered, sound.bounded, sound.known, sound.logged⟩

theorem constant (sound : processor.Sound) (register : Register) (value : UInt64) :
    (processor.writeClear register (.constant value)).Sound where
  lowered := sound.lowered
  bounded := sound.bounded
  known := sound.known
  logged place index held := by
    simp only [writeClear, Array.getElem?_setIfInBounds] at held
    split at held
    · split at held <;> cases held
    · exact sound.logged place index held

theorem reveal (sound : processor.Sound) (register : Register) (value : UInt64) :
    (processor.reveal register (some value)).Sound where
  lowered := sound.lowered
  bounded := by
    have bounded := sound.bounded
    simp only [Processor.reveal, writeClear, RevealLog.push, Array.size_push]
    omega
  known index found held := by
    simp only [Processor.reveal, RevealLog.push, Array.getElem?_push] at held
    split at held
    · cases held
      rfl
    · exact sound.known index found held
  logged place index held := by
    simp only [Processor.reveal, writeClear, RevealLog.push, Array.size_push,
      Array.getElem?_setIfInBounds] at held ⊢
    split at held
    · split at held
      · cases held
        omega
      · cases held
    · exact (sound.logged place index held).trans (Nat.lt_succ_self _)

end Sound

/-- A clear register that the reference interpreter reads is open, or the machine waits. -/
theorem readClear_of_lookup {wire : Type} {processor : Processor wire} {register : Register}
    {value : UInt64}
    (held : (processor.clears.map processor.log.lookup)[register.toNat]?.join = some value) :
    processor.readClear register = .ok (some value, processor) ∨
      processor.readClear register = .ok (none, { processor with taint := ⟨true⟩ }) := by
  rw [Array.getElem?_map] at held
  unfold readClear
  rw [Array.getD_eq_getD_getElem?]
  cases place : processor.clears[register.toNat]? with
  | none => simp [place] at held
  | some clear =>
      simp only [place, Option.map_some, Option.join_some, Option.getD_some] at held ⊢
      cases clear with
      | unset => cases held
      | constant constant =>
          cases held
          exact .inl rfl
      | revealed index =>
          by_cases below : index < processor.log.opened
          · left
            simp only [if_pos below]
            exact congrArg (fun found => Except.ok (found, processor)) held
          · right
            simp only [if_neg below]
            rfl

end Processor

namespace Machine

variable {machine : Machine Bool Plain} {instruction : Instruction} {after : Reference}

theorem read_reference : machine.reference.read = machine.processor.read := by
  funext register
  simp only [Reference.read, Processor.read, reference]
  cases machine.processor.secrets[register.toNat]?.join <;> rfl

theorem readAll_reference (registers : List Register) :
    registers.mapM machine.reference.read = machine.processor.readAll registers := by
  rw [read_reference, Processor.readAll]

theorem readClear_reference {register : Register} {value : UInt64}
    (success : machine.reference.readClear register = .ok value) :
    machine.processor.readClear register = .ok (some value, machine.processor) ∨
      machine.processor.readClear register =
        .ok (none, { machine.processor with taint := ⟨true⟩ }) := by
  unfold Reference.readClear at success
  split at success
  · next held =>
      cases success
      exact Processor.readClear_of_lookup held
  · cases success

/-- A value that becomes known later does not change what the clear registers hold. -/
theorem lookup_push (sound : machine.processor.Sound) (value : Option UInt64) :
    machine.processor.clears.map (machine.processor.log.push value).lookup =
      machine.processor.clears.map machine.processor.log.lookup := by
  refine Array.map_congr_left fun clear held => ?_
  cases clear with
  | unset | constant => rfl
  | revealed index =>
      obtain ⟨place, found⟩ := Array.mem_iff_getElem?.mp held
      have below := sound.logged place index found
      simp only [RevealLog.lookup, RevealLog.push, Array.getElem?_push, if_neg below.ne]

/-- A machine that reveals an open value becomes what the interpreter becomes with that value. -/
theorem reveal_reference (sound : machine.processor.Sound) (register : Register) (value : UInt64) :
    { machine with processor := machine.processor.reveal register (some value) }.reference =
      { machine.reference with
        revealed := machine.reference.revealed ++ [value] }.writeClear register value := by
  have clears : (machine.processor.reveal register (some value)).clears.map
      (machine.processor.log.push (some value)).lookup =
        (machine.processor.clears.map machine.processor.log.lookup).setIfInBounds register.toNat
          (some value) := by
    simp only [Processor.reveal, Processor.writeClear, Array.map_setIfInBounds, lookup_push sound]
    simp [RevealLog.lookup, RevealLog.push]
  have revealed : (machine.processor.log.push (some value)).values.toList.filterMap id =
      machine.processor.log.values.toList.filterMap id ++ [value] := by
    simp [RevealLog.push]
  exact congrArg₂ (fun clears revealed => { machine.reference with clears, revealed }) clears
    revealed

/-- A plain machine completes what the reference interpreter executes, or it waits. -/
theorem completes_of_reference (sound : machine.processor.Sound)
    (success : machine.reference.step instruction = .ok after) :
    (∃ next, Completes (Plain.backend true) instruction machine next ∧ next.processor.Sound ∧
      next.reference = after) ∨
    Completes (Plain.backend true) instruction machine
      { machine with processor := { machine.processor with taint := ⟨true⟩ } } := by
  cases instruction with
  | garblerInput dst =>
      left
      simp only [Reference.step] at success
      split at success
      · cases success
      · next bit rest held =>
          cases success
          exact ⟨_, ⟨bit, _, Plain.garblerInput_eq_ok.mpr ⟨rest, held, rfl⟩, rfl⟩,
            sound.write dst bit, rfl⟩
  | evaluatorInput dst =>
      left
      simp only [Reference.step] at success
      split at success
      · cases success
      · next bit rest held =>
          cases success
          exact ⟨_, ⟨bit, _, Plain.evaluatorInput_eq_ok.mpr ⟨rest, held, rfl⟩, rfl⟩,
            sound.write dst bit, rfl⟩
  | xor dst lhs rhs =>
      left
      simp only [Reference.step, except_bind_eq_ok, except_pure_eq_ok, read_reference] at success
      obtain ⟨left, leftRead, right, rightRead, rfl⟩ := success
      exact ⟨_, ⟨left, right, leftRead, rightRead, rfl⟩, sound.write dst _, rfl⟩
  | and dst lhs rhs =>
      left
      simp only [Reference.step, except_bind_eq_ok, except_pure_eq_ok, read_reference] at success
      obtain ⟨left, leftRead, right, rightRead, rfl⟩ := success
      exact ⟨_, ⟨left, right, _, _, leftRead, rightRead, Plain.runFrom_and true left right, rfl⟩,
        sound.write dst _, rfl⟩
  | not dst src =>
      left
      simp only [Reference.step, except_bind_eq_ok, except_pure_eq_ok, read_reference] at success
      obtain ⟨value, valueRead, rfl⟩ := success
      exact ⟨_, ⟨value, valueRead, rfl⟩, sound.write dst _, rfl⟩
  | reveal dst src =>
      left
      simp only [Reference.step, except_bind_eq_ok, except_pure_eq_ok, readAll_reference] at success
      obtain ⟨bits, bitsRead, rfl⟩ := success
      exact ⟨_, ⟨bits, _, _, bitsRead, Plain.runFrom_reveal bits, rfl⟩, sound.reveal dst _,
        reveal_reference sound dst (Bits.value bits)⟩
  | output src =>
      left
      simp only [Reference.step, except_bind_eq_ok, except_pure_eq_ok, readAll_reference] at success
      obtain ⟨bits, bitsRead, rfl⟩ := success
      exact ⟨_, ⟨bits, _, bitsRead, Plain.runFrom_output bits, rfl⟩, sound, rfl⟩
  | constant dst value =>
      left
      cases success
      refine ⟨_, rfl, sound.constant dst value, ?_⟩
      exact congrArg (fun clears => { machine.reference with clears })
        Array.map_setIfInBounds
  | store src base offset =>
      simp only [Reference.step, except_bind_eq_ok, except_pure_eq_ok, read_reference] at success
      obtain ⟨bit, bitRead, address, clear, memory, stored, rfl⟩ := success
      rcases readClear_reference clear with found | waiting
      · exact .inl ⟨_, ⟨bit, some address, _, bitRead, found, memory, stored, rfl⟩, sound, rfl⟩
      · exact .inr ⟨bit, none, _, bitRead, waiting, rfl⟩
  | load dst base offset =>
      simp only [Reference.step, except_bind_eq_ok, except_pure_eq_ok] at success
      obtain ⟨address, clear, bit, loaded, rfl⟩ := success
      rcases readClear_reference clear with found | waiting
      · exact .inl ⟨_, ⟨some address, _, found, bit, loaded, rfl⟩, sound.write dst bit, rfl⟩
      · exact .inr ⟨none, _, waiting, rfl⟩
  | jumpIfZero condition target =>
      simp only [Reference.step, except_bind_eq_ok] at success
      obtain ⟨value, clear, jumped⟩ := success
      rcases readClear_reference clear with found | waiting
      · left
        by_cases zero : value = 0
        · simp only [if_pos zero, except_pure_eq_ok] at jumped
          subst jumped
          refine ⟨_, ⟨some value, _, found, rfl⟩, ?_, ?_⟩
          · rw [if_pos (congrArg some zero)]
            exact sound.jump _
          · rw [if_pos (congrArg some zero)]
            rfl
        · simp only [if_neg zero, except_pure_eq_ok] at jumped
          subst jumped
          have nonzero : some value ≠ some 0 := fun equal => zero (Option.some.inj equal)
          refine ⟨_, ⟨some value, _, found, rfl⟩, ?_, ?_⟩
          · rw [if_neg nonzero]
            exact sound
          · rw [if_neg nonzero]
      · exact .inr ⟨none, _, waiting, rfl⟩
  | jump target =>
      left
      cases success
      exact ⟨_, rfl, sound.jump _, rfl⟩

end Machine

end Garbling
