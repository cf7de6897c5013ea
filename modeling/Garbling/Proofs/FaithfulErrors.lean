import Mathlib
import Garbling.Proofs.Listening
import Garbling.Proofs.ModesAgree
import Garbling.Proofs.Stretch
import Garbling.Proofs.Supply

/-!
# Errors are reported faithfully

If the reference interpreter fails then partners get together to the slice of the failing
instruction. If that is a lack of inputs of the evaluator then the evaluator fails before the
garbler gets its answer. Any other failure is the garbler's, while the evaluator waits for a batch.
In either case the run ends with the error of the interpreter, in whatever order the parties take
their steps.
-/

namespace Garbling

open Session

variable {suite : Suite} (usable : String → Bool)

namespace Stretch

variable {garblerTask evaluatorTask : Task} {offset : Offset}
  {garbler garblerLast : Machine Label (GarblingState suite)}
  {evaluator evaluatorLast : Machine Label EvaluationState} {inputs left : List Bool}
  {drafts : List (Draft × Break)}

/-- In continuous mode partners play a stretch, and stay partners. -/
theorem continuous (lawful : suite.Lawful) (continuous : Continuous garblerTask evaluatorTask)
    (stretch : Stretch suite offset garblerTask.program garblerTask.settings.timeSlice.toNat garbler
      evaluator inputs drafts garblerLast evaluatorLast left)
    {garblerTransfer evaluatorTransfer : LabelTransfer suite} {number expected : UInt64}
    (partners : Partners ⟨offset, garblerTransfer, garbler, number⟩
      ⟨evaluatorTransfer, evaluator, inputs, expected⟩) :
    ∃ messages phases garblerTransferLast evaluatorTransferLast numberLast expectedLast,
      (Run.parties suite usable garblerTask evaluatorTask).Joint
        (.running (Garbler.rounds garblerTask
          (.slicing ⟨offset, garblerTransfer, garbler, number⟩)))
        (.running (Evaluator.rounds usable evaluatorTask
          (.evaluating ⟨evaluatorTransfer, evaluator, inputs, expected⟩)))
        messages phases
        (.running (Garbler.rounds garblerTask
          (.slicing ⟨offset, garblerTransferLast, garblerLast, numberLast⟩)))
        (.running (Evaluator.rounds usable evaluatorTask
          (.evaluating ⟨evaluatorTransferLast, evaluatorLast, left, expectedLast⟩))) ∧
      Partners ⟨offset, garblerTransferLast, garblerLast, numberLast⟩
        ⟨evaluatorTransferLast, evaluatorLast, left, expectedLast⟩ := by
  induction stretch generalizing garblerTransfer evaluatorTransfer number expected with
  | refl => exact ⟨[], [], _, _, _, _, .refl, partners⟩
  | time portion rest inductionHypothesis =>
      obtain ⟨messages, _, _, together, _, partnersAfter⟩ :=
        portion.together lawful partners continuous.toAlike Garbler.close Evaluator.close
      obtain ⟨_, _, _, _, _, _, joint, partnersLast⟩ := inductionHypothesis partnersAfter
      exact ⟨_, _, _, _, _, _, (continuous.joint_again together agree_close_time).trans joint,
        partnersLast⟩
  | restart portion few rest inductionHypothesis =>
      obtain ⟨messages, _, _, together, _, partnersAfter⟩ :=
        portion.together lawful partners continuous.toAlike Garbler.close Evaluator.close
      obtain ⟨_, _, _, _, _, _, joint, partnersLast⟩ :=
        inductionHypothesis (partnersAfter.resumed _)
      exact ⟨_, _, _, _, _, _,
        (continuous.joint_again together (agree_close_restart portion.opens few)).trans joint,
        partnersLast⟩

/-- In buffered mode the garbler gets through a stretch in which no slice asks for a restart, while
the evaluator stores the batches. -/
theorem buffered (buffered : Buffered garblerTask evaluatorTask)
    (stretch : Stretch suite offset garblerTask.program garblerTask.settings.timeSlice.toNat garbler
      evaluator inputs drafts garblerLast evaluatorLast left)
    (never : ∀ draft ∈ drafts, draft.2 ≠ .restart) {transfer : LabelTransfer suite}
    {number : UInt64} {storing : Evaluator suite} {stored : StoredRun} {before : List Draft}
    (stores : Storing before ⟨offset, transfer, garbler, number⟩ storing stored) :
    ∃ messages phases transferLast numberLast after,
      (Run.parties suite usable garblerTask evaluatorTask).Joint
        (.running (Garbler.rounds garblerTask (.slicing ⟨offset, transfer, garbler, number⟩)))
        (.running (Evaluator.rounds usable evaluatorTask (.storing (storing, stored))))
        messages phases
        (.running (Garbler.rounds garblerTask
          (.slicing ⟨offset, transferLast, garblerLast, numberLast⟩)))
        (.running (Evaluator.rounds usable evaluatorTask (.storing (storing, after)))) := by
  induction stretch generalizing transfer number stored before with
  | refl => exact ⟨[], [], _, _, _, .refl⟩
  | time portion rest inductionHypothesis =>
      obtain ⟨_, sent, storesAfter⟩ := buffered.joint_time stores portion.garbles portion.small
      obtain ⟨_, _, _, _, after, played⟩ :=
        inductionHypothesis (fun draft member => never draft (.tail _ member)) storesAfter
      exact ⟨_, _, _, _, after, sent.trans played⟩
  | restart portion few rest inductionHypothesis => exact absurd rfl (never _ (.head _))

end Stretch

/-- An evaluator that lacks inputs for the slice fails while the garbler waits for it. -/
theorem Lacking.joint {garblerTask evaluatorTask : Task}
    (continuous : Continuous garblerTask evaluatorTask) {garbler : Garbler suite}
    {evaluator : Evaluator suite} (partners : Partners garbler evaluator) {ending : Break}
    {machine : Machine Label (GarblingState suite)}
    (lacking : Lacking suite garbler.offset garblerTask.program
      garblerTask.settings.timeSlice.toNat garbler.machine evaluator.machine evaluator.inputs ending
      machine) :
    ∃ messages waiting, (Run.parties suite usable garblerTask evaluatorTask).Joint
      (.running (Garbler.rounds garblerTask (.slicing garbler)))
      (.running (Evaluator.rounds usable evaluatorTask (.evaluating evaluator))) messages []
      (.running (.receive waiting)) (.ended (.error (.execution .missingEvaluatorInput))) := by
  obtain ⟨messages, joint⟩ := @Continuous.joint_lacks suite usable _ _ _ _ _ _ continuous partners
    lacking.garbles lacking.first lacking.small lacking.missing
  obtain ⟨senders, _, sender, _⟩ := partners.linked.enqueue
    machine.backend.draft.evaluatorInputs.toList
  have requested : ¬machine.backend.draft.evaluatorInputs.toList.isEmpty := by
    intro empty
    have missing := lacking.missing
    rw [← Array.length_toList, List.isEmpty_iff.mp empty] at missing
    exact Nat.not_lt_zero _ missing
  have queued := partners.queued machine.backend.draft.evaluatorInputs.toList
  rw [if_neg requested] at queued
  have serves : (Garbler.serveInputs : Session (Garbler suite) Unit).Listens
      (Garbler.afterBatch { garbler with machine }) := by
    apply Listens.zoom
    exact LabelTransfer.listens_serve sender queued
  obtain ⟨waiting, same⟩ := serves.bind.toRound fun garbler _ => Garbler.Phase.slicing garbler
  exact ⟨messages, waiting, same ▸ joint⟩

namespace Run

/-- Whatever order of steps is taken, the evaluator fails with the given error before the garbler
ends, and so it does when the run is carried out. -/
def EvaluatorAlwaysFails (suite : Suite) (usable : String → Bool) (garblerTask evaluatorTask : Task)
    (garblerGenerator evaluatorGenerator : suite.Generator) (error : Error) : Prop :=
  (start suite usable garblerTask evaluatorTask garblerGenerator evaluatorGenerator).Leads
      (parties suite usable garblerTask evaluatorTask)
      (fun network => network.garbler.result? = none ∧ network.evaluator.result? = none)
      (fun network => network.garbler.result? = none ∧
        network.evaluator = .ended (.error error)) ∧
    ∃ enough, ∀ limit, enough ≤ limit →
      carriedOut suite usable garblerTask evaluatorTask limit garblerGenerator
        evaluatorGenerator = some (.error error)

section

variable {garblerTask evaluatorTask : Task} {garblerGenerator evaluatorGenerator : suite.Generator}
  {path : List Instruction} {last : Instruction} {error : ExecutionError} {reached : Reference}
  {usable : String → Bool}

/-- Where parties get together to a failure of the evaluator while the garbler waits, every run of
them comes to it. -/
theorem evaluatorAlwaysFails_of_joint {error : Error} {messages : List Bytes}
    {phases : List (Garbler.Phase suite)}
    {waiting : Except ReceiveFailure Bytes → Process (Next (Garbler.Phase suite) Outcome)}
    (joint : (parties suite usable garblerTask evaluatorTask).Joint
      (.running (Garbler.rounds garblerTask (.entering garblerGenerator)))
      (.running (Evaluator.rounds usable evaluatorTask (.entering evaluatorGenerator)))
      messages phases (.running (.receive waiting)) (.ended (.error error))) :
    EvaluatorAlwaysFails suite usable garblerTask evaluatorTask garblerGenerator evaluatorGenerator
      error := by
  obtain ⟨_, _, course, _⟩ := on_course joint
  exact ⟨course.leads_to_end_of_evaluator, carriedOut_of_evaluator_failure course⟩

/-- After their setup there is a stretch to a slice in which the garbler fails as the reference
interpreter does. -/
theorem exists_stretch (alike : Alike garblerTask evaluatorTask) (generator : suite.Generator)
    (fails : Reference.Fails garblerTask.program
      (.start garblerTask.program garblerTask.inputs evaluatorTask.inputs) path last error reached)
    (other : error ≠ .missingEvaluatorInput)
    (masks : (path.map Instruction.width).sum < UInt64.size)
    (values : reached.revealed.length < UInt64.size) :
    ∃ drafts garblerLast evaluatorLast left machine,
      Stretch suite (Garbler.drawnOffset generator) garblerTask.program
        garblerTask.settings.timeSlice.toNat
        (.start garblerTask.program
          { generator := Garbler.enteredGenerator generator, inputs := garblerTask.inputs })
        (.start evaluatorTask.program {}) evaluatorTask.inputs drafts garblerLast evaluatorLast
        left ∧
      Machine.execute (GarblingState.backend suite (Garbler.drawnOffset generator))
        garblerTask.program garblerTask.settings.timeSlice.toNat garblerLast =
          (.error (.execution error), machine) ∧
      (Reference.NeverWaits ∅ path last reached → ∀ draft ∈ drafts, draft.2 ≠ .restart) := by
  rw [← Machine.reference_start] at fails
  rw [← alike.program]
  obtain ⟨drafts, garblerLast, evaluatorLast, left, machine, stretch, garbles, free⟩ :=
    (Trio.start garblerTask.program (Garbler.enteredGenerator generator) garblerTask.inputs
      evaluatorTask.inputs).stretch (Garbler.colored_drawnOffset generator) (.start _) fails other
      (Settings.timeSlice_pos alike.garblerValid) garblerTask.settings.timeSlice.toNat_lt_size masks
      values
  exact ⟨drafts, garblerLast, evaluatorLast, left, machine, stretch, garbles, free ∅ (.start _)⟩

/-- In continuous mode every run fails as the reference interpreter does, other than by a lack of
inputs of the evaluator. -/
theorem continuous_fails (lawful : suite.Lawful) (continuous : Continuous garblerTask evaluatorTask)
    (fails : Reference.Fails garblerTask.program
      (.start garblerTask.program garblerTask.inputs evaluatorTask.inputs) path last error reached)
    (other : error ≠ .missingEvaluatorInput)
    (masks : (path.map Instruction.width).sum < UInt64.size)
    (values : reached.revealed.length < UInt64.size)
    (garblerGenerator evaluatorGenerator : suite.Generator) :
    AlwaysFails suite usable garblerTask evaluatorTask garblerGenerator evaluatorGenerator
      (.execution error) := by
  obtain ⟨drafts, garblerLast, evaluatorLast, left, machine, stretch, garbles, _⟩ :=
    exists_stretch continuous.toAlike garblerGenerator fails other masks values
  obtain ⟨message, garblerTransfer, evaluatorTransfer, rest, partners, enters⟩ :=
    agree_enter lawful garblerGenerator evaluatorGenerator
  obtain ⟨_, _, garblerTransferLast, _, numberLast, _, played, _⟩ :=
    stretch.continuous usable lawful continuous (partners garblerTask evaluatorTask)
  have joint := ((continuous.joint_enter (enters continuous.toAlike)).trans played).trans
    (@Garbler.joint_fails suite usable garblerTask evaluatorTask
      ⟨_, garblerTransferLast, garblerLast, numberLast⟩ _ _ garbles _)
  obtain ⟨waiting, same⟩ := Evaluator.listens_evaluating usable evaluatorTask
    ⟨_, evaluatorLast, left, _⟩
  rw [same] at joint
  exact alwaysFails_of_joint joint

/-- In buffered mode every run fails as the reference interpreter does, other than by a lack of
inputs of the evaluator, if no instruction up to the failing one reads a revealed value. -/
theorem buffered_fails (lawful : suite.Lawful) (buffered : Buffered garblerTask evaluatorTask)
    {storage : Storage}
    (selected : Storage.select usable evaluatorTask.settings.storeDirectory = .ok storage)
    (fails : Reference.Fails garblerTask.program
      (.start garblerTask.program garblerTask.inputs evaluatorTask.inputs) path last error reached)
    (never : Reference.NeverWaits ∅ path last reached) (other : error ≠ .missingEvaluatorInput)
    (masks : (path.map Instruction.width).sum < UInt64.size)
    (values : reached.revealed.length < UInt64.size)
    (garblerGenerator evaluatorGenerator : suite.Generator) :
    AlwaysFails suite usable garblerTask evaluatorTask garblerGenerator evaluatorGenerator
      (.execution error) := by
  obtain ⟨drafts, garblerLast, evaluatorLast, left, machine, stretch, garbles, free⟩ :=
    exists_stretch buffered.toAlike garblerGenerator fails other masks values
  obtain ⟨message, garblerTransfer, evaluatorTransfer, rest, partners, enters⟩ :=
    agree_enter lawful garblerGenerator evaluatorGenerator
  obtain ⟨_, _, transferLast, numberLast, after, played⟩ := stretch.buffered usable buffered
    (free never) (Storing.start (partners garblerTask evaluatorTask) storage)
  have joint := ((buffered.joint_enter selected (enters buffered.toAlike)).trans played).trans
    (@Garbler.joint_fails suite usable garblerTask evaluatorTask
      ⟨_, transferLast, garblerLast, numberLast⟩ _ _ garbles _)
  obtain ⟨waiting, same⟩ := Evaluator.listens_storing usable evaluatorTask (_, after)
  rw [same] at joint
  exact alwaysFails_of_joint joint

/-- If the reference interpreter lacks an input of the evaluator, but would finish with more of
them, then there is a stretch to a slice for which the evaluator lacks inputs. -/
theorem exists_lacking (alike : Alike garblerTask evaluatorTask) (generator : suite.Generator)
    (fails : Reference.Fails garblerTask.program
      (.start garblerTask.program garblerTask.inputs evaluatorTask.inputs) path last
      .missingEvaluatorInput reached) {more : List Bool} {whole : List Instruction}
    {final : Reference}
    (finishes : Reference.Finishes garblerTask.program
      (.start garblerTask.program garblerTask.inputs (evaluatorTask.inputs ++ more)) whole final)
    (masks : (whole.map Instruction.width).sum < UInt64.size)
    (values : final.revealed.length < UInt64.size) :
    ∃ drafts garblerLast evaluatorLast left ending machine,
      Stretch suite (Garbler.drawnOffset generator) garblerTask.program
        garblerTask.settings.timeSlice.toNat
        (.start garblerTask.program
          { generator := Garbler.enteredGenerator generator, inputs := garblerTask.inputs })
        (.start evaluatorTask.program {}) evaluatorTask.inputs drafts garblerLast evaluatorLast
        left ∧
      Lacking suite (Garbler.drawnOffset generator) garblerTask.program
        garblerTask.settings.timeSlice.toNat garblerLast evaluatorLast left ending machine := by
  have taken := fails.takes_more finishes
  rw [← Machine.reference_start] at finishes
  obtain ⟨drafts, duet, total, _⟩ := (Trio.start garblerTask.program
    (Garbler.enteredGenerator generator) garblerTask.inputs (evaluatorTask.inputs ++ more)).duet
    (Garbler.colored_drawnOffset generator) (.start _) finishes
    (Settings.timeSlice_pos alike.garblerValid) garblerTask.settings.timeSlice.toNat_lt_size masks
    values
  have fewer : evaluatorTask.inputs.length <
      (drafts.map fun draft => draft.1.evaluatorInputs.size).sum := by
    have count := congrArg List.length total
    have start : (Machine.start garblerTask.program
      ({ garblerInputs := garblerTask.inputs, evaluatorInputs := evaluatorTask.inputs ++ more } :
        Plain) : Machine Bool Plain).backend.evaluatorInputs = evaluatorTask.inputs ++ more := rfl
    rw [start, List.length_drop, List.length_append] at count
    omega
  obtain ⟨before, _, _, _, ending, machine, stretch, lacking⟩ := duet.stretch fewer
  rw [← alike.program]
  exact ⟨before, _, _, _, ending, machine, stretch, lacking⟩

/-- If the reference interpreter lacks an input of the evaluator, but would finish with more of
them, then the evaluator fails in every run in continuous mode. -/
theorem continuous_lacks (lawful : suite.Lawful) (continuous : Continuous garblerTask evaluatorTask)
    (fails : Reference.Fails garblerTask.program
      (.start garblerTask.program garblerTask.inputs evaluatorTask.inputs) path last
      .missingEvaluatorInput reached) {more : List Bool} {whole : List Instruction}
    {final : Reference}
    (finishes : Reference.Finishes garblerTask.program
      (.start garblerTask.program garblerTask.inputs (evaluatorTask.inputs ++ more)) whole final)
    (masks : (whole.map Instruction.width).sum < UInt64.size)
    (values : final.revealed.length < UInt64.size)
    (garblerGenerator evaluatorGenerator : suite.Generator) :
    EvaluatorAlwaysFails suite usable garblerTask evaluatorTask garblerGenerator evaluatorGenerator
      (.execution .missingEvaluatorInput) := by
  obtain ⟨_, _, _, _, _, _, stretch, lacking⟩ :=
    exists_lacking continuous.toAlike garblerGenerator fails finishes masks values
  obtain ⟨message, garblerTransfer, evaluatorTransfer, rest, partners, enters⟩ :=
    agree_enter lawful garblerGenerator evaluatorGenerator
  obtain ⟨_, _, _, _, _, _, played, partnersLast⟩ :=
    stretch.continuous usable lawful continuous (partners garblerTask evaluatorTask)
  obtain ⟨_, _, lacks⟩ := lacking.joint usable continuous partnersLast
  exact evaluatorAlwaysFails_of_joint
    (((continuous.joint_enter (enters continuous.toAlike)).trans played).trans lacks)

/-- A failure of the reference interpreter is what every run with the same program and inputs ends
with. In continuous mode this holds whatever the failure is; if the evaluator lacks an input then it
must be that more of them let the interpreter finish. In buffered mode no instruction up to the
failing one may read a revealed value. The parties count their messages by 64 bit words, so there
must be fewer values and masks. -/
theorem reports_faithfully (lawful : suite.Lawful)
    (fails : Reference.Fails garblerTask.program
      (.start garblerTask.program garblerTask.inputs evaluatorTask.inputs) path last error reached)
    (garblerGenerator evaluatorGenerator : suite.Generator) :
    (error ≠ .missingEvaluatorInput → (path.map Instruction.width).sum < UInt64.size →
      reached.revealed.length < UInt64.size →
      (Continuous garblerTask evaluatorTask →
        AlwaysFails suite usable garblerTask evaluatorTask garblerGenerator evaluatorGenerator
          (.execution error)) ∧
      (Buffered garblerTask evaluatorTask → ∀ storage,
        Storage.select usable evaluatorTask.settings.storeDirectory = .ok storage →
        Reference.NeverWaits ∅ path last reached →
        AlwaysFails suite usable garblerTask evaluatorTask garblerGenerator evaluatorGenerator
          (.execution error))) ∧
    (error = .missingEvaluatorInput → Continuous garblerTask evaluatorTask →
      ∀ more whole final, Reference.Finishes garblerTask.program
        (.start garblerTask.program garblerTask.inputs (evaluatorTask.inputs ++ more)) whole final →
      (whole.map Instruction.width).sum < UInt64.size → final.revealed.length < UInt64.size →
      EvaluatorAlwaysFails suite usable garblerTask evaluatorTask garblerGenerator
        evaluatorGenerator (.execution error)) := by
  refine ⟨fun other masks values =>
      ⟨fun continuous => ?_, fun buffered storage selected never => ?_⟩,
    fun lacks continuous more whole final finishes masks values => ?_⟩
  · exact continuous_fails lawful continuous fails other masks values _ _
  · exact buffered_fails lawful buffered selected fails never other masks values _ _
  · subst lacks
    exact continuous_lacks lawful continuous fails finishes masks values _ _

end

end Run

/-- The product of a bit of each party is revealed, and stored that far behind the end of the
memory. -/
def Program.misplaced : Program where
  instructions := #[.garblerInput 0, .evaluatorInput 1, .and 2 0 1, .reveal 0 [2], .store 2 4 0]
  memorySize := 4
  faultless := by decide

/-- The product of a bit of each party is revealed, and then a register is read that nothing was
written to. -/
def Program.premature : Program where
  instructions := #[.garblerInput 0, .evaluatorInput 1, .and 2 0 1, .reveal 0 [2], .not 2 3]
  memorySize := 0
  faultless := by decide

/-- The instructions that lead up to the failure of both programs. -/
def Instruction.untilRevealed : List Instruction :=
  [.garblerInput 0, .evaluatorInput 1, .and 2 0 1, .reveal 0 [2]]

/-- The task of a party with a set bit, in slices of two instructions. -/
def Task.ofMisplaced : Task := .ofSettings { timeSlice := 2 } .misplaced [true]

/-- The task of a party with a set bit, in buffered mode and in slices of two instructions. -/
def Task.ofPremature : Task := .ofSettings { mode := .buffered, timeSlice := 2 } .premature [true]

/-- The task of an evaluator of the product that has no input. -/
def Task.ofProductWithoutInput : Task := .ofSettings { timeSlice := 2 } .product []

/-- What the reference interpreter fails in if both parties have a set bit. -/
def Reference.ofMisplaced : Reference where
  counter := 4
  secrets := #[some true, some true, some true]
  clears := #[some 1]
  memory := Program.misplaced.memory
  garblerInputs := []
  evaluatorInputs := []
  revealed := [1]

theorem Reference.fails_misplaced :
    Fails .misplaced (.start .misplaced [true] [true]) Instruction.untilRevealed (.store 2 4 0)
      (.memoryOutOfBounds 5 4) .ofMisplaced where
  executes := .step rfl rfl (.step rfl rfl (.step rfl rfl (.step rfl rfl .refl)))
  next := rfl
  failure := rfl

/-- What the reference interpreter fails in if both parties have a set bit. -/
def Reference.ofPremature : Reference where
  counter := 4
  secrets := #[some true, some true, some true, none]
  clears := #[some 1]
  memory := Program.premature.memory
  garblerInputs := []
  evaluatorInputs := []
  revealed := [1]

theorem Reference.fails_premature :
    Fails .premature (.start .premature [true] [true]) Instruction.untilRevealed (.not 2 3)
      (.uninitializedRegister 3) .ofPremature where
  executes := .step rfl rfl (.step rfl rfl (.step rfl rfl (.step rfl rfl .refl)))
  next := rfl
  failure := rfl

/-- The failing instruction reads no clear register. -/
theorem Reference.neverWaits_premature :
    NeverWaits ∅ Instruction.untilRevealed (.not 2 3) .ofPremature where
  executed := ⟨nofun, nofun, nofun, nofun, trivial⟩
  failing := nofun

/-- What the reference interpreter fails in if only the garbler has a bit. -/
def Reference.ofProductWithoutInput : Reference where
  counter := 1
  secrets := #[some true, none, none]
  clears := #[none]
  memory := Program.product.memory
  garblerInputs := []
  evaluatorInputs := []

theorem Reference.fails_product :
    Fails .product (.start .product [true] []) [.garblerInput 0] (.evaluatorInput 1)
      .missingEvaluatorInput .ofProductWithoutInput where
  executes := .step rfl rfl .refl
  next := rfl
  failure := rfl

/-- A bit that is stored behind the memory makes every run in continuous mode fail, although the
address has to be opened first. A register that is read too early makes every run in buffered mode
fail. An evaluator of the product that has no input fails in every run in continuous mode. -/
theorem Run.misplaced_premature_product_reported :
    let suite := Suite.exponents
    let usable : String → Bool := fun _ => true
    let generator : suite.Generator := ChaCha20.Generator.ofSeed []
    suite.Lawful ∧
    (Continuous .ofMisplaced .ofMisplaced ∧
      Reference.Fails .misplaced (.start .misplaced [true] [true]) Instruction.untilRevealed
        (.store 2 4 0) (.memoryOutOfBounds 5 4) .ofMisplaced ∧
      AlwaysFails suite usable .ofMisplaced .ofMisplaced generator generator
        (.execution (.memoryOutOfBounds 5 4))) ∧
    (Buffered .ofPremature .ofPremature ∧
      Storage.select usable Task.ofPremature.settings.storeDirectory = .ok .memory ∧
      Reference.Fails .premature (.start .premature [true] [true]) Instruction.untilRevealed
        (.not 2 3) (.uninitializedRegister 3) .ofPremature ∧
      Reference.NeverWaits ∅ Instruction.untilRevealed (.not 2 3) .ofPremature ∧
      AlwaysFails suite usable .ofPremature .ofPremature generator generator
        (.execution (.uninitializedRegister 3))) ∧
    (Continuous (.ofProduct .continuous) .ofProductWithoutInput ∧
      Reference.Fails .product (.start .product [true] []) [.garblerInput 0] (.evaluatorInput 1)
        .missingEvaluatorInput .ofProductWithoutInput ∧
      Reference.Finishes .product (.start .product [true] ([] ++ [true]))
        Program.product.instructions.toList .ofProduct ∧
      EvaluatorAlwaysFails suite usable (.ofProduct .continuous) .ofProductWithoutInput generator
        generator (.execution .missingEvaluatorInput)) := by
  intro suite usable generator
  have lawful : suite.Lawful := Suite.exponents_lawful
  have misplaced : Continuous .ofMisplaced .ofMisplaced := ⟨⟨rfl, rfl, rfl, rfl, rfl⟩, rfl⟩
  have premature : Buffered .ofPremature .ofPremature := ⟨⟨rfl, rfl, rfl, rfl, rfl⟩, rfl⟩
  have without : Continuous (.ofProduct .continuous) .ofProductWithoutInput :=
    ⟨⟨rfl, rfl, rfl, rfl, rfl⟩, rfl⟩
  have stored : Storage.select usable Task.ofPremature.settings.storeDirectory = .ok .memory := rfl
  refine ⟨lawful, ⟨misplaced, Reference.fails_misplaced, ?_⟩,
    ⟨premature, stored, Reference.fails_premature, Reference.neverWaits_premature, ?_⟩,
    ⟨without, Reference.fails_product, Reference.finishes_product, ?_⟩⟩
  · have reported := @reports_faithfully suite .ofMisplaced .ofMisplaced _ _ _ _ usable lawful
      Reference.fails_misplaced generator generator
    exact (reported.1 nofun (by decide) (by decide)).1 misplaced
  · have reported := @reports_faithfully suite .ofPremature .ofPremature _ _ _ _ usable lawful
      Reference.fails_premature generator generator
    exact (reported.1 nofun (by decide) (by decide)).2 premature .memory stored
      Reference.neverWaits_premature
  · have reported := @reports_faithfully suite (.ofProduct .continuous) .ofProductWithoutInput _ _ _
      _ usable lawful Reference.fails_product generator generator
    exact reported.2 rfl without [true] _ _ Reference.finishes_product (by decide) (by decide)

end Garbling
