import Mathlib
import Garbling.Proofs.Inspection
import Garbling.Proofs.Reachable

/-!
# Failing instructions change nothing

Every instruction reads what it needs and lets the backend act before it changes anything itself.
So an instruction that fails changes at most the backend, and only if it is the backend that fails.
If a failing backend changes nothing either, then a slice that fails leaves exactly what the last
completed instruction has left, apart from the program counter, and can be repeated.
-/

namespace Garbling

variable {wire state : Type}

namespace Backend

/-- From the first state an operation of the backend fails with the error and leaves the second
one. -/
inductive Fails (backend : Backend wire state) (before : state) (error : Error) (after : state) :
    Prop
  | garblerInput (failed : backend.garblerInput.runFrom before = (.error error, after))
  | evaluatorInput (failed : backend.evaluatorInput.runFrom before = (.error error, after))
  | and (left right : wire)
      (failed : (backend.and left right).runFrom before = (.error error, after))
  | reveal (wires : List wire)
      (failed : (backend.reveal wires).runFrom before = (.error error, after))
  | output (wires : List wire)
      (failed : (backend.output wires).runFrom before = (.error error, after))

/-- An operation of the backend that fails changes nothing. -/
def Steady (backend : Backend wire state) : Prop :=
  ∀ before error after, backend.Fails before error after → after = before

end Backend

/-- A wrong number of values to open is refused. -/
theorem Processor.applyOpenings_refused (processor : Processor wire) {openings : List UInt64}
    (other : openings.length ≠ processor.log.pending) :
    processor.applyOpenings openings =
      .error (.openingCountMismatch processor.log.pending openings.length) := by
  rw [applyOpenings, RevealLog.applyOpenings, if_neg other]
  rfl

/-- The plain treatment of the gates fails for lack of inputs only, and then it changes nothing. -/
theorem Plain.backend_steady (known : Bool) : (Plain.backend known).Steady := by
  intro before error after fails
  cases fails with
  | garblerInput failed =>
      cases held : before.garblerInputs with
      | nil =>
          rw [runFrom_garblerInput_of_nil known held] at failed
          cases failed
          rfl
      | cons bit rest =>
          rw [garblerInput_eq_ok.mpr ⟨rest, held, rfl⟩] at failed
          cases failed
  | evaluatorInput failed =>
      cases held : before.evaluatorInputs with
      | nil =>
          rw [runFrom_evaluatorInput_of_nil known held] at failed
          cases failed
          rfl
      | cons bit rest =>
          rw [evaluatorInput_eq_ok.mpr ⟨rest, held, rfl⟩] at failed
          cases failed
  | and left right failed | reveal wires failed | output wires failed => cases failed

namespace Action

variable {σ α β : Type}

/-- Wherever the action fails, the state before it, the error and the state after it are related. -/
def FailsBy (leaves : σ → Error → σ → Prop) (action : Action σ α) : Prop :=
  ∀ before error after, action.runFrom before = (.error error, after) → leaves before error after

/-- The action never fails. -/
def Succeeds (action : Action σ α) : Prop :=
  ∀ before, ∃ value after, action.runFrom before = (.ok value, after)

/-- The action changes nothing. -/
def Reads (action : Action σ α) : Prop :=
  ∀ before, (action.runFrom before).2 = before

variable {leaves : σ → Error → σ → Prop} {action : Action σ α} {next : α → Action σ β}

theorem Succeeds.failsBy (succeeds : action.Succeeds) : action.FailsBy leaves := by
  intro before error after failed
  obtain ⟨value, middle, success⟩ := succeeds before
  cases success.symm.trans failed

theorem Reads.failsBy (reads : action.Reads) (unchanged : ∀ state error, leaves state error state) :
    action.FailsBy leaves := by
  intro before error after failed
  have same : after = before := by simpa only [failed] using reads before
  rw [same]
  exact unchanged before error

theorem Reads.bind (reads : action.Reads) (rest : ∀ value, (next value).Reads) :
    (action >>= next).Reads := by
  intro before
  have same := reads before
  rw [runFrom_bind]
  generalize action.runFrom before = outcome at same
  obtain ⟨error | value, middle⟩ := outcome
  · exact same
  · exact (rest value middle).trans same

/-- What comes after an action that changes nothing may fail as it would without it. -/
theorem FailsBy.after_reads (first : action.FailsBy leaves) (reads : action.Reads)
    (rest : ∀ value, (next value).FailsBy leaves) : (action >>= next).FailsBy leaves := by
  intro before error after failed
  have same := reads before
  rw [runFrom_bind] at failed
  generalize found : action.runFrom before = outcome at failed same
  obtain ⟨fault | value, middle⟩ := outcome
  · cases failed
    exact first before _ _ found
  · subst same
    exact rest value _ error after failed

/-- What comes after the only part that may fail must not fail. -/
theorem FailsBy.before_succeeds (first : action.FailsBy leaves)
    (rest : ∀ value, (next value).Succeeds) : (action >>= next).FailsBy leaves := by
  intro before error after failed
  rw [runFrom_bind] at failed
  generalize found : action.runFrom before = outcome at failed
  obtain ⟨fault | value, middle⟩ := outcome
  · cases failed
    exact first before _ _ found
  · obtain ⟨result, last, success⟩ := rest value middle
    cases success.symm.trans failed

end Action

namespace Machine

/-- The second machine is the first one, except that the backend may have failed with the error. -/
structure Interrupted (backend : Backend wire state) (before : Machine wire state) (error : Error)
    (after : Machine wire state) : Prop where
  kept : after = { before with backend := after.backend }
  reason : after.backend = before.backend ∨ backend.Fails before.backend error after.backend

variable {backend : Backend wire state} {instruction : Instruction}

theorem Interrupted.refl (machine : Machine wire state) (error : Error) :
    Interrupted backend machine error machine :=
  ⟨rfl, .inl rfl⟩

/-- If a failing backend changes nothing then the machine is the same. -/
theorem Interrupted.eq {before after : Machine wire state} {error : Error}
    (interrupted : Interrupted backend before error after) (steady : backend.Steady) :
    after = before := by
  rw [interrupted.kept]
  rcases interrupted.reason with same | fails
  · rw [same]
  · rw [steady _ _ _ fails]

variable {α β : Type}

theorem reads_checked (outcome : Except ExecutionError α) :
    (checked outcome : Action (Machine wire state) α).Reads := by
  intro before
  cases outcome <;> rfl

theorem reads_read (register : Register) :
    (read register : Action (Machine wire state) wire).Reads :=
  Action.Reads.bind (fun _ => rfl) fun _ => reads_checked _

theorem reads_readAll (registers : List Register) :
    (readAll registers : Action (Machine wire state) (List wire)).Reads :=
  Action.Reads.bind (fun _ => rfl) fun _ => reads_checked _

theorem failsBy_of_reads {action : Action (Machine wire state) α} (reads : action.Reads) :
    action.FailsBy (Interrupted backend) :=
  reads.failsBy .refl

/-- What comes after an action that changes nothing may fail as it would without it. -/
theorem failsBy_after_reads {action : Action (Machine wire state) α}
    {next : α → Action (Machine wire state) β} (reads : action.Reads)
    (rest : ∀ value, (next value).FailsBy (Interrupted backend)) :
    (action >>= next).FailsBy (Interrupted backend) :=
  (failsBy_of_reads reads).after_reads reads rest

theorem failsBy_perform {action : Action state α}
    (fails : ∀ before error after, action.runFrom before = (.error error, after) →
      backend.Fails before error after) :
    (perform action : Action (Machine wire state) α).FailsBy (Interrupted backend) := by
  intro before error after failed
  have outcome : (perform action).runFrom before = ((action.runFrom before.backend).1,
      { before with backend := (action.runFrom before.backend).2 }) := rfl
  rw [outcome] at failed
  obtain ⟨isError, rfl⟩ := Prod.mk.inj failed
  exact ⟨rfl, .inr (fails _ _ _ (Prod.ext isError rfl))⟩

/-- What an instruction does with the value of a clear register may fail only if there is one, and
then reading it has changed nothing. -/
theorem failsBy_withClear (register : Register) {action : UInt64 → Action (Machine wire state) Unit}
    (fails : ∀ value, (action value).FailsBy (Interrupted backend)) :
    (do if let some value ← readClear register then action value :
      Action (Machine wire state) Unit).FailsBy (Interrupted backend) := by
  intro before error after failed
  cases clear : before.processor.readClear register with
  | error missing =>
      rw [Action.runFrom_bind_of_error (runFrom_readClear_of_error clear)] at failed
      cases failed
      exact .refl before _
  | ok found =>
      obtain ⟨value, processor⟩ := found
      rw [Action.runFrom_bind_of_ok (runFrom_readClear_eq_ok.mpr ⟨processor, clear, rfl⟩)] at failed
      cases value with
      | none => cases failed
      | some value =>
          obtain rfl | ⟨none, _⟩ := Processor.readClear_ok clear
          · exact fails value _ _ _ failed
          · cases none

/-- An instruction that fails has changed nothing but what a failing backend changes. -/
theorem failsBy_step (backend : Backend wire state) (instruction : Instruction) :
    (step backend instruction).FailsBy (Interrupted backend) := by
  have written (register : Register) (value : wire) :
      (write register value : Action (Machine wire state) Unit).Succeeds :=
    fun _ => ⟨(), _, rfl⟩
  cases instruction with
  | garblerInput dst =>
      exact (failsBy_perform fun _ _ _ => .garblerInput).before_succeeds (written dst)
  | evaluatorInput dst =>
      exact (failsBy_perform fun _ _ _ => .evaluatorInput).before_succeeds (written dst)
  | xor dst lhs rhs =>
      exact failsBy_after_reads (reads_read lhs) fun left =>
        failsBy_after_reads (reads_read rhs) fun right => (written dst _).failsBy
  | and dst lhs rhs =>
      exact failsBy_after_reads (reads_read lhs) fun left =>
        failsBy_after_reads (reads_read rhs) fun right =>
        (failsBy_perform fun _ _ _ => .and left right).before_succeeds (written dst)
  | not dst src => exact failsBy_after_reads (reads_read src) fun value => (written dst _).failsBy
  | reveal dst src =>
      exact failsBy_after_reads (reads_readAll src) fun wires =>
        (failsBy_perform fun _ _ _ => .reveal wires).before_succeeds
          fun value before => ⟨(), _, rfl⟩
  | output src =>
      exact failsBy_after_reads (reads_readAll src) fun wires =>
        failsBy_perform fun _ _ _ => .output wires
  | constant dst value => exact Action.Succeeds.failsBy fun before => ⟨(), _, rfl⟩
  | store src base offset =>
      refine failsBy_after_reads (reads_read src) fun value =>
        failsBy_withClear offset fun offset => ?_
      refine failsBy_after_reads (fun _ => rfl) fun machine => ?_
      exact (failsBy_of_reads (reads_checked _)).before_succeeds fun memory before => ⟨(), _, rfl⟩
  | load dst base offset =>
      exact failsBy_withClear offset fun offset =>
        failsBy_after_reads (fun _ => rfl) fun machine =>
          (failsBy_of_reads (reads_checked _)).before_succeeds (written dst)
  | jumpIfZero condition target =>
      refine failsBy_withClear condition fun value => Action.Succeeds.failsBy fun before => ?_
      by_cases zero : value = 0
      · rw [if_pos zero]
        exact ⟨(), _, rfl⟩
      · rw [if_neg zero]
        exact ⟨(), _, rfl⟩
  | jump target => exact Action.Succeeds.failsBy fun before => ⟨(), _, rfl⟩

variable {program : Program} {machine last after : Machine wire state} {error : Error}
  {executed : List Instruction}

/-- An attempt that fails has changed nothing but the program counter and what a failing backend
changes. -/
theorem interrupted_of_attempt
    (failed : attempt backend instruction machine = (.error error, after)) :
    Interrupted backend { machine with processor := machine.processor.advance } error after := by
  have outcome : attempt backend instruction machine =
      match (step backend instruction).runFrom
        { machine with processor := machine.processor.advance } with
      | (.error error, next) => (.error error, next)
      | (.ok (), next) => (.ok next.processor.taint.checkpoint.1,
          { next with processor := { next.processor with taint := {} } }) := rfl
  rw [outcome] at failed
  split at failed
  · next fails =>
      cases failed
      exact failsBy_step backend instruction _ _ _ fails
  · cases failed

/-- A machine that completes instructions leaves its taint flag lowered. -/
theorem Advances.lowered (advances : Advances backend program machine executed last)
    (lowered : machine.processor.taint = {}) : last.processor.taint = {} := by
  induction advances with
  | refl => exact lowered
  | step next attempted others inductionHypothesis =>
      exact inductionHypothesis (taint_of_attempt attempted)

/-- A slice that fails has completed some instructions, fewer than its budget, and then an
instruction has failed. -/
theorem execute_error {budget : Nat}
    (failed : execute backend program budget machine = (.error error, after)) :
    ∃ executed last instruction, Advances backend program machine executed last ∧
      executed.length < budget ∧
        program.instructions[last.processor.counter]? = some instruction ∧
          attempt backend instruction last = (.error error, after) := by
  obtain ⟨executed, last, left, rfl, advances, stops⟩ := execute_eq_iff.mp failed
  cases stops with
  | failed next attempted =>
      exact ⟨executed, last, _, advances, Nat.lt_add_of_pos_right (Nat.succ_pos _), next, attempted⟩

/-- A wrong number of values to open is refused, and changes nothing. -/
theorem applyOpenings_refused (machine : Machine wire state) {openings : List UInt64}
    (other : openings.length ≠ machine.processor.log.pending) :
    machine.applyOpenings openings =
      (.applied (.error (.openingCountMismatch machine.processor.log.pending openings.length)),
        machine) := by
  rw [Machine.applyOpenings, machine.processor.applyOpenings_refused other]

/-- If the backend changes nothing when it fails, then a slice that fails leaves exactly what the
last completed instruction has left, except that the program counter is past the failing
instruction. The taint flag is lowered. Going back and executing any positive number of instructions
fails with the same error and leaves the same. A wrong number of values to open changes nothing. -/
theorem failure_is_atomic {backend : Backend wire state} (steady : backend.Steady)
    {program : Program} {machine : Machine wire state} (reachable : Reachable program machine) :
    (∀ budget error after, execute backend program budget machine = (.error error, after) →
      ∃ executed last instruction, Advances backend program machine executed last ∧
        executed.length < budget ∧
        program.instructions[last.processor.counter]? = some instruction ∧
        attempt backend instruction last = (.error error, after) ∧
        after = { last with processor := last.processor.advance } ∧
        after.processor.taint = {} ∧
        ∀ more, 0 < more → after.callAll backend program [.rewind, .execute more] =
          ([.rewound, .executed (.error error)], after)) ∧
      ∀ openings, openings.length ≠ machine.processor.log.pending →
        machine.call backend program (.applyOpenings openings) =
          (.applied (.error (.openingCountMismatch machine.processor.log.pending openings.length)),
            machine) := by
  refine ⟨fun budget error after failed => ?_, fun openings => machine.applyOpenings_refused⟩
  obtain ⟨executed, last, instruction, advances, below, next, attempted⟩ := execute_error failed
  have same : after = { last with processor := last.processor.advance } :=
    (interrupted_of_attempt attempted).eq steady
  have lowered : after.processor.taint = {} := by
    rw [same]
    exact advances.lowered reachable.wellFormed.lowered
  have back : after.withProcessor after.processor.rewind = last := by
    rw [same]
    rfl
  refine ⟨executed, last, instruction, advances, below, next, attempted, same, lowered,
    fun more positive => ?_⟩
  obtain ⟨others, rfl⟩ := Nat.exists_eq_succ_of_ne_zero positive.ne'
  have again : execute backend program (others + 1) last = (.error error, after) :=
    execute_of_attempt_error next attempted others
  simp only [callAll, call, back, again]

end Machine

/-- A bit of the garbler is revealed, and its negation is stored that far behind the last cell. -/
def Program.overrun : Program where
  instructions := #[.garblerInput 0, .reveal 0 [0], .not 1 0, .store 1 3 0]
  memorySize := 4
  faultless := by decide

/-- The overrun of a set bit when the bit has been opened. -/
def Machine.ofOverrun : Machine Bool Plain :=
  ((Machine.start Program.overrun { garblerInputs := [true], evaluatorInputs := [] }).callAll
    (Plain.backend true) .overrun [.execute 2, .takeOpenings]).2

/-- The negation is computed, and then storing it fails again and again. -/
theorem Machine.overrun_failure_is_atomic :
    (Plain.backend true).Steady ∧ Reachable .overrun ofOverrun ∧
      ∃ after, execute (Plain.backend true) .overrun 9 ofOverrun =
          (.error (.execution (.memoryOutOfBounds 4 4)), after) ∧
        after.processor.taint = {} ∧
        (∀ more, 0 < more → after.callAll (Plain.backend true) .overrun [.rewind, .execute more] =
          ([.rewound, .executed (.error (.execution (.memoryOutOfBounds 4 4)))], after)) ∧
        ([1] : List UInt64).length ≠ ofOverrun.processor.log.pending ∧
        ofOverrun.call (Plain.backend true) .overrun (.applyOpenings [1]) =
          (.applied (.error (.openingCountMismatch 0 1)), ofOverrun) := by
  have steady : (Plain.backend true).Steady := Plain.backend_steady true
  have reachable : Reachable .overrun ofOverrun := ⟨_, Leads.refl.callAll _ _⟩
  have failed : execute (Plain.backend true) .overrun 9 ofOverrun =
      (.error (.execution (.memoryOutOfBounds 4 4)), _) := Prod.ext rfl rfl
  have other : ([1] : List UInt64).length ≠ ofOverrun.processor.log.pending := by decide
  obtain ⟨failures, refusals⟩ := failure_is_atomic steady reachable
  obtain ⟨_, _, _, _, _, _, _, _, lowered, again⟩ := failures 9 _ _ failed
  exact ⟨steady, reachable, _, failed, lowered, again, other, refusals [1] other⟩

end Garbling
