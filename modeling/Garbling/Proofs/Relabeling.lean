import Mathlib
import Garbling.Proofs.Duet

/-!
# The same duet with other labels

What both parties go through does not depend on the labels that the garbler draws. Behind a duet
there is a plain execution, slice by slice, and any other garbler and evaluator follow it as well.
So they play a duet that ends its slices in the same way and comes to the same values.
-/

namespace Garbling

variable {α β : Type}

theorem CellsRelated.symm {wire : α → β → Prop} {first : Array (Option α)}
    {second : Array (Option β)} (related : CellsRelated wire first second) :
    CellsRelated (fun right left => wire left right) second first := by
  refine ⟨related.size.symm, fun index => ?_⟩
  have held := related.held index
  generalize first[index]?.join = left at held
  generalize second[index]?.join = right at held ⊢
  cases held with
  | none => exact .none
  | some same => exact .some same

variable {suite : Suite} {offset other : Offset} {program : Program} {budget : Nat}

/-- Plain execution is one half of tracked garbling. -/
def Tracked.toPlain (suite : Suite) (offset : Offset) :
    Coupling (Tracked.backend suite offset) (Plain.backend true) where
  wire tracked bit := tracked.1 = bit
  entry left right := left = right
  state state plain := state.1 = plain
  within _ := True
  within_of_effect _ _ := trivial
  garblerInput := by
    rintro state _ tracked after rfl performed -
    exact ⟨_, _, (Backend.pair_garblerInput_eq_ok.mp performed).1, rfl, rfl⟩
  evaluatorInput := by
    rintro state _ tracked after rfl performed -
    exact ⟨_, _, (Backend.pair_evaluatorInput_eq_ok.mp performed).1, rfl, rfl⟩
  and := by
    rintro left right _ _ rfl rfl state _ tracked after rfl performed -
    exact ⟨_, _, (Backend.pair_and_eq_ok.mp performed).1, rfl, rfl⟩
  xor := by
    rintro left right _ _ rfl rfl
    rfl
  not := by
    rintro tracked _ rfl
    rfl
  reveal := by
    rintro tracked bits same state _ value after rfl performed -
    obtain rfl : tracked.map Prod.fst = bits := by
      rwa [← List.forall₂_eq_eq_eq, List.forall₂_map_left_iff]
    exact ⟨value, _, (Backend.pair_reveal_eq_ok.mp performed).1, rfl, rfl⟩
  output := by
    rintro tracked bits same state _ value after rfl performed -
    obtain rfl : tracked.map Prod.fst = bits := by
      rwa [← List.forall₂_eq_eq_eq, List.forall₂_map_left_iff]
    exact ⟨(), _, (Backend.pair_output_eq_ok.mp performed).1, trivial, rfl⟩

/-- All values of a log that is open are known, as far as they are not open. -/
theorem RevealLog.known_opening (log : RevealLog) : log.opening.Known := by
  intro index value beyond held
  have inside := (Array.getElem?_eq_some_iff.mp held).1
  exact absurd inside (Nat.not_lt.mpr beyond)

/-- What comes of a slice is determined by what both parties start it with. -/
theorem Portion.unique {garbler first second : Machine Label (GarblingState suite)}
    {evaluator third fourth : Machine Label EvaluationState} {inputs : List Bool}
    {ending otherEnding : Break}
    (one : Portion suite offset program budget garbler evaluator inputs ending first third)
    (two : Portion suite offset program budget garbler evaluator inputs otherEnding second fourth) :
    first = second ∧ third = fourth := by
  have garbled := one.garbles.symm.trans two.garbles
  cases garbled
  have evaluated := one.evaluates.symm.trans two.evaluates
  cases evaluated
  exact ⟨rfl, rfl⟩

namespace Trio

variable {plain : Machine Bool Plain}
  {tracked otherTracked : Machine (Bool × Label) (Plain × GarblingState suite)}
  {garbler otherGarbler : Machine Label (GarblingState suite)}
  {evaluator otherEvaluator : Machine Label EvaluationState}

/-- Behind a slice of the garbler for which the evaluator has enough inputs there is one of the plain
execution. -/
theorem plain_slice (trio : Trio suite offset plain tracked garbler evaluator)
    (known : plain.processor.log.Known) {executed : List Instruction} {ending : Break}
    {garblerAfter : Machine Label (GarblingState suite)}
    (slice : Machine.Slice (GarblingState.backend suite offset) program budget garbler executed
      ending garblerAfter)
    (enough : garblerAfter.backend.draft.evaluatorInputs.size ≤
      plain.backend.evaluatorInputs.length) :
    ∃ plainAfter, Machine.Slice (Plain.backend true) program budget plain executed ending
        plainAfter ∧ plainAfter.processor.log.Known := by
  have same : plain.processor.log = tracked.processor.log := trio.plain.processor.log.eq
  have log := trio.garbling.processor.log.symm
  have inputs : tracked.backend.1 = plain.backend := trio.plain.backend.1
  have garbling : tracked.backend.2 = garbler.backend := trio.garbling.backend
  have left : (Tracked.ofGarbling suite offset garblerAfter.backend.draft).Related garbler tracked :=
    { processor :=
        { counter := trio.garbling.processor.counter.symm
          secrets := trio.garbling.processor.secrets.symm
          clears := trio.garbling.processor.clears.symm
          log :=
            { log with
              pending := fun index first second beyond firstHeld secondHeld =>
                ⟨log.pending index first second beyond firstHeld secondHeld,
                  known index second (by rw [same, ← log.opened]; exact beyond)
                    (by rw [same]; exact secondHeld)⟩ }
          taint := trio.garbling.processor.taint.symm }
      memory := trio.garbling.memory.symm
      backend := by
        refine ⟨garbling, ?_, ?_⟩
        · rw [inputs, ← garbling]
          exact trio.plain.backend.2.symm
        · rw [inputs]
          exact enough.trans (Nat.le_add_left _ _) }
  have right : (Tracked.toPlain suite offset).Related tracked plain :=
    { processor :=
        { counter := trio.plain.processor.counter.symm
          secrets := trio.plain.processor.secrets.symm
          clears := trio.plain.processor.clears.symm
          log := trio.plain.processor.log.symm.mono fun _ _ same => same.symm
          taint := trio.plain.processor.taint.symm }
      memory := trio.plain.memory.symm
      backend := inputs }
  obtain ⟨trackedAfter, trackedSlice, leftAfter⟩ :=
    (Tracked.ofGarbling suite offset _).slice left slice (.refl _)
  obtain ⟨plainAfter, plainSlice, rightAfter⟩ :=
    (Tracked.toPlain suite offset).slice right trackedSlice trivial
  refine ⟨plainAfter, plainSlice, fun index value beyond held => ?_⟩
  have sameAfter : trackedAfter.processor.log = plainAfter.processor.log :=
    rightAfter.processor.log.eq
  rw [← sameAfter] at beyond held
  have logAfter := leftAfter.processor.log
  have inside := (Array.getElem?_eq_some_iff.mp held).1
  rw [← logAfter.size] at inside
  exact (logAfter.pending index _ value (logAfter.opened ▸ beyond)
    (Array.getElem?_eq_getElem inside) held).2

/-- Whoever follows the same plain execution follows it through a slice that others execute. -/
theorem portion_again (first : Trio suite offset plain tracked garbler evaluator)
    (second : Trio suite other plain otherTracked otherGarbler otherEvaluator)
    (colored : offset.Colored) (otherColored : other.Colored) (known : plain.processor.log.Known)
    (lowered : plain.processor.taint = {}) (small : budget < UInt64.size) {ending : Break}
    {garblerAfter : Machine Label (GarblingState suite)}
    {evaluatorAfter : Machine Label EvaluationState}
    (portion : Portion suite offset program budget garbler evaluator plain.backend.evaluatorInputs
      ending garblerAfter evaluatorAfter) :
    ∃ plainAfter trackedAfter otherTrackedAfter otherGarblerAfter otherEvaluatorAfter,
      Portion suite other program budget otherGarbler otherEvaluator plain.backend.evaluatorInputs
        ending otherGarblerAfter otherEvaluatorAfter ∧
      Trio suite offset plainAfter trackedAfter garblerAfter.emptied evaluatorAfter ∧
      Trio suite other plainAfter otherTrackedAfter otherGarblerAfter.emptied otherEvaluatorAfter ∧
      plainAfter.processor.log.Known ∧ plainAfter.processor.taint = {} ∧
      plainAfter.backend.evaluatorInputs = plain.backend.evaluatorInputs.drop
        garblerAfter.backend.draft.evaluatorInputs.size ∧
      plainAfter.backend.evaluatorInputs = plain.backend.evaluatorInputs.drop
        otherGarblerAfter.backend.draft.evaluatorInputs.size := by
  obtain ⟨executed, slice⟩ := Machine.execute_eq_ok_iff.mp portion.garbles
  obtain ⟨plainAfter, plainSlice, knownAfter⟩ := first.plain_slice known slice portion.enough
  have garblerLowered : garbler.processor.taint = {} := by
    rw [← first.garbling.processor.taint, ← first.plain.processor.taint, lowered]
  have masks : Instruction.allNeed executed .mask < UInt64.size := by
    have short := portion.short .mask
    rwa [GarblingState.amount_of_effects (slice.effects garblerLowered), first.empty,
      Draft.amount_empty, Nat.zero_add] at short
  obtain ⟨trackedAfter, _, _, again, firstAfter, left⟩ :=
    first.portion colored plainSlice lowered small masks knownAfter
  obtain ⟨rfl, rfl⟩ := portion.unique again
  obtain ⟨otherTrackedAfter, otherGarblerAfter, otherEvaluatorAfter, otherPortion, secondAfter,
    otherLeft⟩ := second.portion otherColored plainSlice lowered small masks knownAfter
  exact ⟨plainAfter, trackedAfter, otherTrackedAfter, otherGarblerAfter, otherEvaluatorAfter,
    otherPortion, firstAfter, secondAfter, knownAfter, plainSlice.taint lowered, left, otherLeft⟩

end Trio

/-- Whoever follows the same plain execution plays the duet that others play, with the same endings
and the same values. -/
theorem Duet.relabeled {garbler otherGarbler : Machine Label (GarblingState suite)}
    {evaluator otherEvaluator : Machine Label EvaluationState} {inputs : List Bool}
    {drafts : List (Draft × Break)} {revealed outputs : List UInt64}
    (duet : Duet suite offset program budget garbler evaluator inputs drafts revealed outputs)
    (colored : offset.Colored) (otherColored : other.Colored) (small : budget < UInt64.size)
    {plain : Machine Bool Plain}
    {tracked otherTracked : Machine (Bool × Label) (Plain × GarblingState suite)}
    (first : Trio suite offset plain tracked garbler evaluator)
    (second : Trio suite other plain otherTracked otherGarbler otherEvaluator)
    (same : plain.backend.evaluatorInputs = inputs) (known : plain.processor.log.Known)
    (lowered : plain.processor.taint = {}) :
    ∃ otherDrafts, Duet suite other program budget otherGarbler otherEvaluator inputs otherDrafts
        revealed outputs ∧ otherDrafts.map Prod.snd = drafts.map Prod.snd := by
  induction duet generalizing plain tracked otherTracked otherGarbler otherEvaluator with
  | done portion few =>
      subst same
      obtain ⟨plainAfter, _, _, otherGarblerAfter, otherEvaluatorAfter, otherPortion, firstAfter,
        secondAfter, _⟩ :=
        first.portion_again second colored otherColored known lowered small portion
      have log := firstAfter.log_eq.symm.trans secondAfter.log_eq
      rw [log] at few ⊢
      rw [firstAfter.outputs_eq, ← secondAfter.outputs_eq]
      exact ⟨_, .done otherPortion few, rfl⟩
  | time portion rest inductionHypothesis =>
      subst same
      obtain ⟨plainAfter, _, _, otherGarblerAfter, otherEvaluatorAfter, otherPortion, firstAfter,
        secondAfter, knownAfter, loweredAfter, left, otherLeft⟩ :=
        first.portion_again second colored otherColored known lowered small portion
      obtain ⟨otherDrafts, others, endings⟩ :=
        inductionHypothesis firstAfter secondAfter left knownAfter loweredAfter
      rw [← left, otherLeft] at others
      exact ⟨_, .time otherPortion others, congrArg (_ :: ·) endings⟩
  | restart portion few rest inductionHypothesis =>
      subst same
      obtain ⟨plainAfter, _, _, otherGarblerAfter, otherEvaluatorAfter, otherPortion, firstAfter,
        secondAfter, knownAfter, loweredAfter, left, otherLeft⟩ :=
        first.portion_again second colored otherColored known lowered small portion
      have log := firstAfter.log_eq.symm.trans secondAfter.log_eq
      rw [log] at few
      obtain ⟨otherDrafts, others, endings⟩ := inductionHypothesis firstAfter.resumed
        secondAfter.resumed left (RevealLog.known_opening _) loweredAfter
      rw [← left, otherLeft] at others
      exact ⟨_, .restart otherPortion few others, congrArg (_ :: ·) endings⟩

end Garbling
