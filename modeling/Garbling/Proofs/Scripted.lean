import Mathlib
import Garbling.Proofs.Footprints
import Garbling.Proofs.Reference
import Garbling.Proofs.Related

/-!
# Revealed values from a script

The reference interpreter can take the values that a program reveals from a script instead of
from the wires: the first value for the first instruction that reveals one, and so on. The
garbler's machine never knows what its wires hold; where the values that are opened to it are
those of a script, it does, instruction by instruction, what the reference interpreter does with
that script.
-/

namespace Garbling

variable {suite : Suite}

namespace Reference

/-- Executes one instruction, the counter having been moved past it. A revealed value is the one
of the script that has its place. -/
def stepBy (script : List UInt64) (reference : Reference) (instruction : Instruction) :
    Except ExecutionError Reference :=
  match instruction, script[reference.revealed.length]? with
  | .reveal dst src, some value => do
      let _ ← src.mapM reference.read
      return { reference with revealed := reference.revealed ++ [value] }.writeClear dst value
  | instruction, _ => reference.step instruction

/-- The address that an instruction is about to use. -/
def addressOf (reference : Reference) : Instruction → Option Nat
  | .store _ base offset | .load _ base offset =>
      match reference.readClear offset with
      | .ok value => some (base.toNat + value.toNat)
      | .error _ => none
  | _ => none

/-- With the values of the script, the interpreter leaves the given footprints. -/
inductive Leaves (program : Program) (script : List UInt64) :
    Reference → List Footprint → Reference → Prop
  | refl {reference : Reference} : Leaves program script reference [] reference
  | step {before middle after : Reference} {instruction : Instruction} {rest : List Footprint}
      (next : program.instructions[before.counter]? = some instruction)
      (success : before.advance.stepBy script instruction = .ok middle)
      (others : Leaves program script middle rest after) :
      Leaves program script before
        (⟨before.counter, instruction, before.addressOf instruction, middle.counter⟩ :: rest) after

theorem Leaves.trans {program : Program} {script : List UInt64} {before middle after : Reference}
    {first rest : List Footprint} (one : Leaves program script before first middle)
    (two : Leaves program script middle rest after) :
    Leaves program script before (first ++ rest) after := by
  induction one with
  | refl => exact two
  | step next success others inductionHypothesis =>
      exact .step next success (inductionHypothesis two)

end Reference

/-- What a clear register holds if revealed values are those of the script. -/
def Clear.scripted (script : List UInt64) : Clear → Option UInt64
  | .unset => none
  | .constant value => some value
  | .revealed index => script[index]?

namespace RevealLog

/-- The log after some more values that are not known. -/
def awaiting (log : RevealLog) (count : Nat) : RevealLog :=
  { log with values := log.values ++ Array.replicate count none }

theorem awaiting_zero (log : RevealLog) : log.awaiting 0 = log := by
  simp [awaiting]

theorem awaiting_awaiting (log : RevealLog) (first rest : Nat) :
    (log.awaiting first).awaiting rest = log.awaiting (first + rest) := by
  simp [awaiting, Array.append_assoc]

theorem push_none (log : RevealLog) : log.push none = log.awaiting 1 := by
  simp [push, awaiting]

theorem size_awaiting (log : RevealLog) (count : Nat) :
    (log.awaiting count).values.size = log.values.size + count := by
  simp [awaiting]

end RevealLog

/-- Moving the counter on does not change what a clear register holds. -/
theorem Processor.readClear_advance {wire : Type} (processor : Processor wire)
    (register : Register) :
    processor.advance.readClear register =
      (processor.readClear register).map fun (found, after) => (found, after.advance) := by
  have clears : processor.advance.clears = processor.clears := rfl
  have log : processor.advance.log = processor.log := rfl
  unfold readClear
  rw [clears, log]
  cases processor.clears.getD register.toNat .unset with
  | unset | constant => rfl
  | revealed index =>
      dsimp only
      by_cases below : index < processor.log.opened
      · rw [if_pos below, if_pos below]
        rfl
      · rw [if_neg below, if_neg below]
        rfl

namespace Machine

variable {offset : Offset} {program : Program} {budget : Nat} {script : List UInt64}
  {before middle after : Machine Label (GarblingState suite)} {reference : Reference}
  {instruction : Instruction} {executed : List Instruction} {ending : Break}

/-- The machine after a slice; where the slice asks for a restart, it goes back to the instruction
that could not be executed. -/
def settled {wire state : Type} (machine : Machine wire state) : Break → Machine wire state
  | .restart => { machine with processor := machine.processor.rewind }
  | .time | .done => machine

/-- To the garbler a revealed value is not known. -/
theorem Completes.log_eq (completes : Completes (GarblingState.backend suite offset) instruction before after) :
    after.processor.log = before.processor.log.awaiting (if instruction.reveals then 1 else 0) := by
  have logs := completes.logs
  by_cases reveals : instruction.reveals = true
  · rw [if_pos reveals] at logs ⊢
    obtain ⟨wires, value, rest, performed, logged⟩ := logs
    rw [GarblingState.runFrom_reveal] at performed
    cases performed
    rw [logged, RevealLog.push_none]
  · rw [if_neg reveals] at logs ⊢
    rw [logs, RevealLog.awaiting_zero]

/-- A slice of the garbler logs a value that is not known for each instruction that reveals one. -/
theorem Slice.log_eq
    (slice : Slice (GarblingState.backend suite offset) program budget before executed ending after)
    (lowered : before.processor.taint = {}) :
    after.processor.log = before.processor.log.awaiting (executed.countP (·.reveals)) := by
  induction slice with
  | done finished => exact (RevealLog.awaiting_zero _).symm
  | time next => exact (RevealLog.awaiting_zero _).symm
  | restart next attempted =>
      obtain ⟨rfl, _⟩ := restart_of_attempt lowered attempted
      exact (RevealLog.awaiting_zero _).symm
  | step next attempted slice inductionHypothesis =>
      have rest := inductionHypothesis (taint_of_attempt attempted)
      obtain ⟨middle, completed, _, rfl⟩ := attempt_eq_ok_iff.mp attempted
      rw [rest, List.countP_cons, Nat.add_comm, ← RevealLog.awaiting_awaiting]
      exact congrArg (RevealLog.awaiting · _) completed.log_eq

/-- The reference interpreter is where the garbler's machine is. It holds a truth value where the
machine holds a wire, and what the script tells where the machine holds a revealed value; the
values that are open are those of the script. -/
structure Scripted (script : List UInt64) (machine : Machine Label (GarblingState suite))
    (reference : Reference) : Prop where
  counter : reference.counter = machine.processor.counter
  secrets : CellsRelated (fun (_ : Label) (_ : Bool) => True) machine.processor.secrets
    reference.secrets
  clears : reference.clears = machine.processor.clears.map (Clear.scripted script)
  memory : CellsRelated (fun (_ : Label) (_ : Bool) => True) machine.memory.cells
    reference.memory.cells
  inputs : reference.garblerInputs = machine.backend.inputs
  revealed : reference.revealed = script.take machine.processor.log.values.size
  opened : ∀ index < machine.processor.log.opened,
    machine.processor.log.values[index]?.join = script[index]?
  bounded : machine.processor.log.opened ≤ machine.processor.log.values.size
  short : machine.processor.log.values.size ≤ script.length

namespace Scripted

/-- The start of a program, where nothing has been revealed. -/
theorem start (program : Program) (script : List UInt64) (generator : suite.Generator)
    (garblerInputs evaluatorInputs : List Bool) :
    Scripted script (.start program { generator, inputs := garblerInputs })
      (.start program garblerInputs evaluatorInputs) where
  counter := rfl
  secrets := .replicate _
  clears := by
    simp only [Reference.start, Machine.start, Program.processor, Array.map_replicate]
    rfl
  memory := .replicate _
  inputs := rfl
  revealed := rfl
  opened index below := absurd below (Nat.not_lt_zero index)
  bounded := Nat.zero_le _
  short := Nat.zero_le _

theorem advance (scripted : Scripted script before reference) :
    Scripted script { before with processor := before.processor.advance } reference.advance :=
  { scripted with counter := congrArg (· + 1) scripted.counter }

theorem flag (scripted : Scripted script before reference) (taint : Taint) :
    Scripted script { before with processor := { before.processor with taint } } reference :=
  { scripted with }

theorem jump (scripted : Scripted script before reference) (target : Nat) :
    Scripted script { before with processor := { before.processor with counter := target } }
      { reference with counter := target } :=
  { scripted with counter := rfl }

theorem write (scripted : Scripted script before reference) (register : Register) (label : Label)
    (bit : Bool) :
    Scripted script { before with processor := before.processor.write register label }
      (reference.write register bit) :=
  { scripted with secrets := scripted.secrets.set register.toNat trivial }

theorem writeClear (scripted : Scripted script before reference) (register : Register)
    (clear : Clear) {value : UInt64} (held : clear.scripted script = some value) :
    Scripted script { before with processor := before.processor.writeClear register clear }
      (reference.writeClear register value) :=
  { scripted with
    clears := by
      simp only [Reference.writeClear, Processor.writeClear, scripted.clears,
        Array.map_setIfInBounds, held] }

/-- The interpreter has revealed as many values as the log of the machine has places. -/
theorem length_revealed (scripted : Scripted script before reference) :
    reference.revealed.length = before.processor.log.values.size := by
  rw [scripted.revealed, List.length_take, Nat.min_eq_left scripted.short]

/-- The machine reveals a value that is not open, and the interpreter has it from the script. -/
theorem reveal (scripted : Scripted script before reference) (register : Register) {value : UInt64}
    (told : script[before.processor.log.values.size]? = some value) :
    Scripted script { before with processor := before.processor.reveal register none }
      ({ reference with revealed := reference.revealed ++ [value] }.writeClear register value) := by
  have longer : (before.processor.log.push none).values.size =
      before.processor.log.values.size + 1 := Array.size_push none
  have bounded := scripted.bounded
  refine { scripted.writeClear register (.revealed before.processor.log.values.size) told with
    revealed := ?_
    opened := ?_
    bounded := ?_
    short := longer.trans_le (List.getElem?_eq_some_iff.mp told).1 }
  · change reference.revealed ++ _ = script.take (before.processor.log.push none).values.size
    rw [longer, List.take_add_one, told, scripted.revealed]
    rfl
  · intro index below
    have other : index ≠ before.processor.log.values.size := (below.trans_le bounded).ne
    change (before.processor.log.push none).values[index]?.join = script[index]?
    rw [RevealLog.push, Array.getElem?_push, if_neg other]
    exact scripted.opened index below
  · change before.processor.log.opened ≤ (before.processor.log.push none).values.size
    omega

/-- The wires that the machine reads are truth values of the interpreter. -/
theorem read (scripted : Scripted script before reference) {register : Register} {label : Label}
    (success : before.processor.read register = .ok label) :
    ∃ bit, reference.read register = .ok bit := by
  unfold Processor.read at success
  split at success
  · next holds =>
      obtain ⟨bit, found, _⟩ := scripted.secrets.held_of_first holds
      exact ⟨bit, by rw [Reference.read, found]⟩
  · cases success

theorem readAll (scripted : Scripted script before reference) {registers : List Register}
    {labels : List Label} (success : before.processor.readAll registers = .ok labels) :
    ∃ bits, registers.mapM reference.read = .ok bits := by
  induction registers generalizing labels with
  | nil => exact ⟨[], rfl⟩
  | cons register rest inductionHypothesis =>
      obtain ⟨head, tail, one, others, rfl⟩ := Processor.readAll_cons_ok.mp success
      obtain ⟨bit, found⟩ := scripted.read one
      obtain ⟨bits, foundAll⟩ := inductionHypothesis others
      refine ⟨bit :: bits, ?_⟩
      simp only [List.mapM_cons, found, foundAll]
      rfl

/-- A clear register that the machine reads without waiting holds what the script tells. -/
theorem readClear (scripted : Scripted script before reference) {register : Register}
    {found : Option UInt64} {processor : Processor Label}
    (success : before.processor.readClear register = .ok (found, processor))
    (lowered : processor.taint.raised = false) :
    ∃ value, found = some value ∧ processor = before.processor ∧
      reference.readClear register = .ok value := by
  have holds : reference.clears[register.toNat]?.join =
      (before.processor.clears.getD register.toNat .unset).scripted script := by
    rw [scripted.clears, Array.getElem?_map, Array.getD_eq_getD_getElem?]
    cases before.processor.clears[register.toNat]? with
    | none => rfl
    | some clear => rfl
  unfold Reference.readClear
  rw [holds]
  unfold Processor.readClear at success
  split at success
  · cases success
  · next value held =>
      cases success
      exact ⟨value, rfl, rfl, by rw [held]; rfl⟩
  · next index held =>
      split at success
      · next below =>
          cases success
          have inside : index < script.length :=
            below.trans_le (scripted.bounded.trans scripted.short)
          have told : script[index]? = some script[index] := List.getElem?_eq_getElem inside
          refine ⟨script[index], (scripted.opened index below).trans told, rfl, ?_⟩
          rw [held, Clear.scripted, told]
      · cases success
        cases lowered

/-- What the machine completes without waiting, the interpreter executes with the script. -/
theorem completes (scripted : Scripted script before reference)
    (completes : Completes (GarblingState.backend suite offset) instruction before after)
    (lowered : after.processor.taint.raised = false)
    (short : after.processor.log.values.size ≤ script.length)
    (enough : instruction.needs .evaluatorInput ≤ reference.evaluatorInputs.length) :
    ∃ next, reference.stepBy script instruction = .ok next ∧ Scripted script after next ∧
      next.evaluatorInputs =
        reference.evaluatorInputs.drop (instruction.needs .evaluatorInput) := by
  cases instruction with
  | garblerInput dst =>
      obtain ⟨label, rest, performed, rfl⟩ := completes
      obtain ⟨bit, inputs, held, rfl, rfl⟩ := GarblingState.garblerInput_eq_ok.mp performed
      have given : reference.garblerInputs = bit :: inputs := scripted.inputs.trans held
      refine ⟨{ reference with garblerInputs := inputs }.write dst bit, ?_, ?_, rfl⟩
      · simp only [Reference.stepBy, Reference.step, given]
      · exact { scripted.write dst before.backend.fresh bit with inputs := rfl }
  | evaluatorInput dst =>
      obtain ⟨label, rest, performed, rfl⟩ := completes
      rw [GarblingState.runFrom_evaluatorInput] at performed
      cases performed
      obtain ⟨bit, inputs, given⟩ := List.exists_cons_of_length_pos enough
      refine ⟨{ reference with evaluatorInputs := inputs }.write dst bit, ?_, ?_, ?_⟩
      · simp only [Reference.stepBy, Reference.step, given]
      · exact { scripted.write dst before.backend.fresh bit with inputs := scripted.inputs }
      · rw [given]
        rfl
  | xor dst lhs rhs =>
      obtain ⟨left, right, leftRead, rightRead, rfl⟩ := completes
      obtain ⟨leftBit, leftFound⟩ := scripted.read leftRead
      obtain ⟨rightBit, rightFound⟩ := scripted.read rightRead
      refine ⟨_, ?_, scripted.write dst _ (leftBit ^^ rightBit), rfl⟩
      simp only [Reference.stepBy, Reference.step, except_bind_eq_ok, except_pure_eq_ok]
      exact ⟨leftBit, leftFound, rightBit, rightFound, rfl⟩
  | and dst lhs rhs =>
      obtain ⟨left, right, label, rest, leftRead, rightRead, performed, rfl⟩ := completes
      rw [GarblingState.runFrom_and] at performed
      cases performed
      obtain ⟨leftBit, leftFound⟩ := scripted.read leftRead
      obtain ⟨rightBit, rightFound⟩ := scripted.read rightRead
      refine ⟨_, ?_, { scripted.write dst _ (leftBit && rightBit) with inputs := scripted.inputs },
        rfl⟩
      simp only [Reference.stepBy, Reference.step, except_bind_eq_ok, except_pure_eq_ok]
      exact ⟨leftBit, leftFound, rightBit, rightFound, rfl⟩
  | not dst src =>
      obtain ⟨label, labelRead, rfl⟩ := completes
      obtain ⟨bit, found⟩ := scripted.read labelRead
      refine ⟨_, ?_, scripted.write dst _ (!bit), rfl⟩
      simp only [Reference.stepBy, Reference.step, except_bind_eq_ok, except_pure_eq_ok]
      exact ⟨bit, found, rfl⟩
  | reveal dst src =>
      obtain ⟨labels, value, rest, labelsRead, performed, rfl⟩ := completes
      rw [GarblingState.runFrom_reveal] at performed
      cases performed
      obtain ⟨bits, found⟩ := scripted.readAll labelsRead
      simp only [Processor.reveal, RevealLog.push, Array.size_push] at short
      have told : script[before.processor.log.values.size]? =
          some script[before.processor.log.values.size] := List.getElem?_eq_getElem short
      refine ⟨_, ?_, { scripted.reveal dst told with inputs := scripted.inputs }, rfl⟩
      simp only [Reference.stepBy, scripted.length_revealed, told, except_bind_eq_ok, except_pure_eq_ok]
      exact ⟨bits, found, trivial⟩
  | output src =>
      obtain ⟨labels, rest, labelsRead, performed, rfl⟩ := completes
      rw [GarblingState.runFrom_output] at performed
      cases performed
      obtain ⟨bits, found⟩ := scripted.readAll labelsRead
      refine ⟨{ reference with outputs := reference.outputs ++ [Bits.value bits] }, ?_,
        { scripted with }, rfl⟩
      simp only [Reference.stepBy, Reference.step, except_bind_eq_ok, except_pure_eq_ok]
      exact ⟨bits, found, rfl⟩
  | constant dst value =>
      subst completes
      refine ⟨reference.writeClear dst value, ?_, scripted.writeClear dst _ rfl, rfl⟩
      simp only [Reference.stepBy, Reference.step]
  | store src base offset =>
      obtain ⟨label, found, processor, labelRead, clear, stored⟩ := completes
      obtain ⟨bit, bitFound⟩ := scripted.read labelRead
      cases found with
      | none =>
          subst stored
          obtain ⟨_, nothing, _⟩ := scripted.readClear clear lowered
          cases nothing
      | some address =>
          obtain ⟨memory, success, rfl⟩ := stored
          obtain ⟨_, same, rfl, clearFound⟩ := scripted.readClear clear lowered
          cases same
          have related : (fun (_ : Label) (_ : Bool) => True) label bit := trivial
          obtain ⟨otherMemory, otherSuccess, related⟩ :=
            Memory.store_related scripted.memory related success
          refine ⟨{ reference with memory := otherMemory }, ?_, { scripted with memory := related },
            rfl⟩
          simp only [Reference.stepBy, Reference.step, except_bind_eq_ok, except_pure_eq_ok]
          exact ⟨bit, bitFound, address, clearFound, otherMemory, otherSuccess, rfl⟩
  | load dst base offset =>
      obtain ⟨found, processor, clear, loaded⟩ := completes
      cases found with
      | none =>
          subst loaded
          obtain ⟨_, nothing, _⟩ := scripted.readClear clear lowered
          cases nothing
      | some address =>
          obtain ⟨label, success, rfl⟩ := loaded
          obtain ⟨_, same, rfl, clearFound⟩ := scripted.readClear clear lowered
          cases same
          obtain ⟨bit, otherSuccess, _⟩ := Memory.load_related scripted.memory success
          refine ⟨reference.write dst bit, ?_, scripted.write dst label bit, rfl⟩
          simp only [Reference.stepBy, Reference.step, except_bind_eq_ok, except_pure_eq_ok]
          exact ⟨address, clearFound, bit, otherSuccess, rfl⟩
  | jumpIfZero condition target =>
      obtain ⟨found, processor, clear, rfl⟩ := completes
      have kept : processor.taint.raised = false := by
        by_cases zero : found = some 0
        · rwa [if_pos zero] at lowered
        · rwa [if_neg zero] at lowered
      obtain ⟨value, rfl, rfl, clearFound⟩ := scripted.readClear clear kept
      by_cases zero : value = 0
      · subst zero
        refine ⟨{ reference with counter := target.toNat }, ?_, scripted.jump _, rfl⟩
        simp only [Reference.stepBy, Reference.step, except_bind_eq_ok]
        exact ⟨0, clearFound, rfl⟩
      · refine ⟨reference, ?_, ?_, rfl⟩
        · simp only [Reference.stepBy, Reference.step, except_bind_eq_ok]
          exact ⟨value, clearFound, if_neg zero⟩
        · rw [if_neg (fun equal => zero (Option.some.inj equal))]
          exact scripted
  | jump target =>
      subst completes
      refine ⟨{ reference with counter := target.toNat }, ?_, scripted.jump _, rfl⟩
      simp only [Reference.stepBy, Reference.step]

/-- The machine and the interpreter use the same address, unless the machine waits. -/
theorem addressOf (scripted : Scripted script before reference)
    (completes : Completes (GarblingState.backend suite offset) instruction
      { before with processor := before.processor.advance } after)
    (lowered : after.processor.taint.raised = false) :
    before.processor.addressOf instruction = reference.addressOf instruction := by
  have both {register : Register} {found : Option UInt64} {processor : Processor Label}
      (clear : before.processor.advance.readClear register = .ok (found, processor))
      (flag : processor.taint.raised = false) :
      ∃ value, before.processor.readClear register = .ok (some value, before.processor) ∧
        reference.readClear register = .ok value := by
    rw [Processor.readClear_advance] at clear
    cases held : before.processor.readClear register with
    | error error =>
        rw [held] at clear
        cases clear
    | ok pair =>
        rw [held] at clear
        cases clear
        obtain ⟨value, same, kept, told⟩ := scripted.readClear held flag
        exact ⟨value, by rw [← same, ← kept], told⟩
  cases instruction with
  | store src base offset =>
      obtain ⟨label, found, processor, _, clear, stored⟩ := completes
      have kept : processor.taint.raised = false := by
        cases found with
        | none =>
            subst stored
            exact lowered
        | some address =>
            obtain ⟨memory, _, rfl⟩ := stored
            exact lowered
      obtain ⟨value, held, told⟩ := both clear kept
      simp only [Processor.addressOf, Reference.addressOf, held, told]
  | load dst base offset =>
      obtain ⟨found, processor, clear, loaded⟩ := completes
      have kept : processor.taint.raised = false := by
        cases found with
        | none =>
            subst loaded
            exact lowered
        | some address =>
            obtain ⟨label, _, rfl⟩ := loaded
            exact lowered
      obtain ⟨value, held, told⟩ := both clear kept
      simp only [Processor.addressOf, Reference.addressOf, held, told]
  | _ => rfl

/-- The interpreter follows the machine through a slice and leaves the same footprints. An attempt
that asks for a restart is not made by the interpreter, so there the machine has to go back. -/
theorem slice (scripted : Scripted script before reference)
    (slice : Slice (GarblingState.backend suite offset) program budget before executed ending after)
    (lowered : before.processor.taint = {})
    (short : after.processor.log.values.size ≤ script.length)
    (enough : Instruction.allNeed executed .evaluatorInput ≤ reference.evaluatorInputs.length) :
    ∃ next, Reference.Leaves program script reference
        (footprints (GarblingState.backend suite offset) program budget before) next ∧
      Scripted script (after.settled ending) next ∧
      next.evaluatorInputs =
        reference.evaluatorInputs.drop (Instruction.allNeed executed .evaluatorInput) := by
  induction slice generalizing reference with
  | done finished =>
      refine ⟨reference, ?_, scripted, rfl⟩
      rw [footprints, history_of_end finished]
      exact .refl
  | time next => exact ⟨reference, .refl, scripted, rfl⟩
  | restart next attempted =>
      obtain ⟨rfl, _⟩ := restart_of_attempt lowered attempted
      refine ⟨reference, ?_, scripted, rfl⟩
      simp only [footprints, history, next, attempted]
      exact .refl
  | @step budget before middle after instruction rest ending next attempted slice
      inductionHypothesis =>
      have log := slice.log_eq (taint_of_attempt attempted)
      rw [Instruction.allNeed_cons] at enough
      have proceeds := attempted
      obtain ⟨completed, completion, checkpoint, rfl⟩ := attempt_eq_ok_iff.mp proceeds
      have flag : completed.processor.taint.raised = false := by
        by_contra raised
        simp [Taint.checkpoint, raised] at checkpoint
      have shorter : completed.processor.log.values.size ≤ script.length := by
        rw [log, RevealLog.size_awaiting] at short
        exact (Nat.le_add_right _ _).trans short
      obtain ⟨stepped, success, scriptedMiddle, left⟩ :=
        scripted.advance.completes completion flag shorter (((Nat.le_add_right _ _).trans enough))
      have remaining : Instruction.allNeed rest .evaluatorInput ≤
          stepped.evaluatorInputs.length := by
        rw [left, List.length_drop]
        have whole : reference.advance.evaluatorInputs.length = reference.evaluatorInputs.length :=
          rfl
        omega
      obtain ⟨final, leaves, scriptedAfter, dropped⟩ :=
        inductionHypothesis (scriptedMiddle.flag {}) rfl short remaining
      refine ⟨final, ?_, scriptedAfter, ?_⟩
      · rw [footprints, history_of_proceed next attempted, List.map_cons, Executed.footprint,
          scripted.addressOf completion flag, ← scripted.counter, ← scriptedMiddle.counter]
        rw [← scripted.counter] at next
        exact .step next success leaves
      · rw [dropped, left, List.drop_drop, Instruction.allNeed_cons]
        rfl

end Scripted

end Machine

end Garbling
