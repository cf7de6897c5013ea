import Mathlib
import Garbling.Proofs.BufferedRun
import Garbling.Proofs.CarryingOut
import Garbling.Proofs.ContinuousFate
import Garbling.Proofs.Orderly
import Garbling.Proofs.Relabeling

/-!
# Both modes agree

A run in continuous mode in which both parties succeed is a duet. If no slice of it asks for a
restart then the parties come to the same outputs in buffered mode, whatever their generators are,
and a garbler with the same generator sends the same batches. If some slice asks for a restart then
the garbler refuses in buffered mode.
-/

namespace Garbling

open Session

variable {suite : Suite} {usable : String → Bool}

/-- The tasks are for the same program, inputs and time slice. -/
structure Task.Resembles (first second : Task) : Prop where
  program : first.program = second.program
  inputs : first.inputs = second.inputs
  timeSlice : first.settings.timeSlice = second.settings.timeSlice

section

variable {garblerTask evaluatorTask : Task} {generator : suite.Generator}
  {drafts : List (Draft × Break)} {revealed outputs : List UInt64}

/-- A duet of other tasks for the same program, inputs and time slice. -/
theorem Duet.Whole.resembled
    (duet : Duet.Whole garblerTask evaluatorTask generator drafts revealed outputs)
    {otherGarbler otherEvaluator : Task} (garblers : garblerTask.Resembles otherGarbler)
    (evaluators : evaluatorTask.Resembles otherEvaluator) :
    Duet.Whole otherGarbler otherEvaluator generator drafts revealed outputs := by
  unfold Duet.Whole
  rw [← garblers.program, ← garblers.inputs, ← garblers.timeSlice, ← evaluators.inputs]
  exact duet

/-- A duet of a garbler with another generator. -/
theorem Duet.Whole.relabeled
    (duet : Duet.Whole garblerTask evaluatorTask generator drafts revealed outputs)
    (other : suite.Generator) :
    ∃ otherDrafts, Duet.Whole garblerTask evaluatorTask other otherDrafts revealed outputs ∧
      otherDrafts.map Prod.snd = drafts.map Prod.snd :=
  Duet.relabeled duet (Garbler.colored_drawnOffset generator) (Garbler.colored_drawnOffset other)
    garblerTask.settings.timeSlice.toNat_lt_size
    (.start garblerTask.program _ garblerTask.inputs evaluatorTask.inputs)
    (.start garblerTask.program _ garblerTask.inputs evaluatorTask.inputs) rfl nofun rfl

/-- A whole duet is played by the parties as they are after their setup. -/
theorem Duet.Whole.entered (alike : Alike garblerTask evaluatorTask)
    (duet : Duet.Whole garblerTask evaluatorTask generator drafts revealed outputs)
    (evaluatorTransfer : LabelTransfer suite) :
    Duet suite (Garbler.drawnOffset generator) garblerTask.program
      garblerTask.settings.timeSlice.toNat
      (.start garblerTask.program
        { generator := Garbler.enteredGenerator generator, inputs := garblerTask.inputs })
      (Evaluator.entered evaluatorTask evaluatorTransfer).machine
      (Evaluator.entered evaluatorTask evaluatorTransfer).inputs drafts revealed outputs := by
  rw [Evaluator.entered, ← alike.program]
  exact duet

/-- The batches that the garbler sends after its two messages of the setup. -/
theorem Transcript.Carries.ofGarbler {messages : List Bytes} {entries : List Entry}
    (carries : Transcript.Carries messages entries) (announcement points : Bytes) :
    (Transcript.ofGarbler ([announcement, points] ++ messages)).filter Entry.inStream = entries := by
  rw [List.cons_append, List.singleton_append, Transcript.ofGarbler, List.filter_cons,
    List.filter_cons]
  exact carries.ofStream

/-- After their setup parties play a duet in continuous mode. What the garbler sends carries the
batches of the duet, and its slices end as those of the duet. -/
theorem Entrance.continuous {evaluatorGenerator rest : suite.Generator} {message : Bytes}
    {garblerTransfer evaluatorTransfer : LabelTransfer suite}
    (entrance : Entrance generator evaluatorGenerator message garblerTransfer evaluatorTransfer rest)
    (lawful : suite.Lawful) (continuous : Continuous garblerTask evaluatorTask)
    (duet : Duet.Whole garblerTask evaluatorTask generator drafts revealed outputs) :
    ∃ messages phases,
      (Run.parties suite usable garblerTask evaluatorTask).Joint
        (.running (Garbler.rounds garblerTask (.entering generator)))
        (.running (Evaluator.rounds usable evaluatorTask (.entering evaluatorGenerator)))
        ([garblerTask.announcement, message] ++ messages) phases (.ended (.ok { revealed }))
        (.ended (.ok { revealed, evaluatorOnly := outputs })) ∧
      (Transcript.ofGarbler ([garblerTask.announcement, message] ++ messages)).filter
        Entry.inStream = streamEntries 0 (drafts.map Prod.fst) ∧
      List.Forall₂ (fun phase draft => Garbler.Ends garblerTask draft.2 phase) phases drafts := by
  obtain ⟨messages, phases, played, carries, ends⟩ := Duet.continuous lawful continuous
    (duet.entered continuous.toAlike evaluatorTransfer)
    (entrance.partners garblerTask evaluatorTask)
  exact ⟨messages, _,
    (continuous.joint_enter (entrance.enters continuous.toAlike)).trans played,
    carries.ofGarbler _ _, ends⟩

/-- Parties play a duet in buffered mode if none of its slices asks for a restart. What the garbler
sends carries the batches of the duet. -/
theorem Duet.Whole.buffered (lawful : suite.Lawful)
    (buffered : Buffered garblerTask evaluatorTask) {storage : Storage}
    (selected : Storage.select usable evaluatorTask.settings.storeDirectory = .ok storage)
    (duet : Duet.Whole garblerTask evaluatorTask generator drafts revealed outputs)
    (never : ∀ draft ∈ drafts, draft.2 ≠ .restart) (evaluatorGenerator : suite.Generator) :
    ∃ messages phases,
      (Run.parties suite usable garblerTask evaluatorTask).Joint
        (.running (Garbler.rounds garblerTask (.entering generator)))
        (.running (Evaluator.rounds usable evaluatorTask (.entering evaluatorGenerator)))
        messages phases (.ended (.ok { revealed }))
        (.ended (.ok { revealed, evaluatorOnly := outputs })) ∧
      (Transcript.ofGarbler messages).filter Entry.inStream =
        streamEntries 0 (drafts.map Prod.fst) := by
  obtain ⟨message, garblerTransfer, evaluatorTransfer, rest, partners, enters⟩ :=
    agree_enter lawful generator evaluatorGenerator
  obtain ⟨messages, phases, played, carries⟩ := Duet.buffered lawful buffered
    (duet.entered buffered.toAlike evaluatorTransfer) never (partners garblerTask evaluatorTask)
    storage
  exact ⟨_, _, (buffered.joint_enter selected (enters buffered.toAlike)).trans played,
    carries.ofGarbler _ _⟩

/-- The garbler refuses to play a duet in buffered mode if one of its slices asks for a restart. The
evaluator waits for another batch then. -/
theorem Duet.Whole.refused (lawful : suite.Lawful)
    (buffered : Buffered garblerTask evaluatorTask) {storage : Storage}
    (selected : Storage.select usable evaluatorTask.settings.storeDirectory = .ok storage)
    (duet : Duet.Whole garblerTask evaluatorTask generator drafts revealed outputs)
    (restarts : ∃ draft ∈ drafts, draft.2 = .restart) (evaluatorGenerator : suite.Generator) :
    ∃ messages phases waiting,
      (Run.parties suite usable garblerTask evaluatorTask).Joint
        (.running (Garbler.rounds garblerTask (.entering generator)))
        (.running (Evaluator.rounds usable evaluatorTask (.entering evaluatorGenerator)))
        messages phases (.ended (.error (.settings (.restartInBufferedMode .garbler))))
        (.running (.receive waiting)) := by
  obtain ⟨message, garblerTransfer, evaluatorTransfer, rest, partners, enters⟩ :=
    agree_enter lawful generator evaluatorGenerator
  obtain ⟨messages, phases, after, played⟩ := Duet.refused buffered
    (duet.entered buffered.toAlike evaluatorTransfer) restarts
    (Storing.start (partners garblerTask evaluatorTask) storage)
  exact ⟨_, _, _, (buffered.joint_enter selected (enters buffered.toAlike)).trans played⟩

end

/-- The tags and batches that the garbler has sent in the course of some events. -/
def Event.stream {state : Type} (events : List (Event state)) : List Entry :=
  (Transcript.ofGarbler (Event.sent events)).filter Entry.inStream

/-- A garbler's slice ends in one way only. -/
theorem Garbler.Ends.unique {task : Task} {phase : Phase suite} {ending other : Break}
    (one : Ends task ending phase) (two : Ends task other phase) : ending = other := by
  cases phase with
  | entering generator => exact one.elim
  | slicing garbler => exact Except.ok.inj (one.symm.trans two)

/-- If the slices that begin in some phases end as those of some drafts, then one of them ends in the
given way exactly if the slice of a draft does. -/
theorem Garbler.exists_ends_iff {task : Task} {phases : List (Phase suite)}
    {drafts : List (Draft × Break)}
    (ends : List.Forall₂ (fun phase draft => Ends task draft.2 phase) phases drafts)
    (ending : Break) :
    (∃ phase ∈ phases, Ends task ending phase) ↔ ending ∈ drafts.map Prod.snd := by
  induction ends with
  | nil => simp
  | cons same _ inductionHypothesis =>
      rw [List.exists_mem_cons_iff, inductionHypothesis, List.map_cons, List.mem_cons]
      exact or_congr_left ⟨fun other => other.unique same, fun equal => equal ▸ same⟩

/-- No slice of a duet ends in a way in which none of its endings is. -/
theorem Duet.ne_of_not_mem {drafts : List (Draft × Break)} {ending : Break}
    (absent : ending ∉ drafts.map Prod.snd) (draft : Draft × Break) (member : draft ∈ drafts) :
    draft.2 ≠ ending := by
  rintro rfl
  exact absent (List.mem_map_of_mem member)

namespace Run

/-- Whatever order of steps is taken, the run ends with the given outputs of both parties, and so it
does when it is carried out. -/
def AlwaysSucceeds (suite : Suite) (usable : String → Bool) (garblerTask evaluatorTask : Task)
    (garblerGenerator evaluatorGenerator : suite.Generator) (first second : Outputs) : Prop :=
  (start suite usable garblerTask evaluatorTask garblerGenerator evaluatorGenerator).Leads
      (parties suite usable garblerTask evaluatorTask) (fun _ => True)
      (fun network => network.garbler = .ended (.ok first) ∧
        network.evaluator = .ended (.ok second)) ∧
    ∃ enough, ∀ limit, enough ≤ limit →
      carriedOut suite usable garblerTask evaluatorTask limit garblerGenerator
        evaluatorGenerator = some (.ok (first, second))

/-- Whatever order of steps is taken, the garbler fails with the given error before the evaluator
ends, and so it does when the run is carried out. -/
def AlwaysFails (suite : Suite) (usable : String → Bool) (garblerTask evaluatorTask : Task)
    (garblerGenerator evaluatorGenerator : suite.Generator) (error : Error) : Prop :=
  (start suite usable garblerTask evaluatorTask garblerGenerator evaluatorGenerator).Leads
      (parties suite usable garblerTask evaluatorTask)
      (fun network => network.garbler.result? = none ∧ network.evaluator.result? = none)
      (fun network => network.garbler = .ended (.error error) ∧
        network.evaluator.result? = none) ∧
    ∃ enough, ∀ limit, enough ≤ limit →
      carriedOut suite usable garblerTask evaluatorTask limit garblerGenerator
        evaluatorGenerator = some (.error error)

section

variable {garblerTask evaluatorTask : Task} {garblerGenerator evaluatorGenerator : suite.Generator}
  {messages : List Bytes} {phases : List (Garbler.Phase suite)}

theorem alwaysSucceeds_of_joint {first second : Outputs}
    (joint : (parties suite usable garblerTask evaluatorTask).Joint
      (.running (Garbler.rounds garblerTask (.entering garblerGenerator)))
      (.running (Evaluator.rounds usable evaluatorTask (.entering evaluatorGenerator)))
      messages phases (.ended (.ok first)) (.ended (.ok second))) :
    AlwaysSucceeds suite usable garblerTask evaluatorTask garblerGenerator evaluatorGenerator first
      second := by
  obtain ⟨_, _, course, _⟩ := on_course joint
  exact ⟨course.leads, carriedOut_of_course course⟩

theorem alwaysFails_of_joint {error : Error}
    {waiting : Except ReceiveFailure Bytes → Process (Next (Evaluator.Phase suite) Outcome)}
    (joint : (parties suite usable garblerTask evaluatorTask).Joint
      (.running (Garbler.rounds garblerTask (.entering garblerGenerator)))
      (.running (Evaluator.rounds usable evaluatorTask (.entering evaluatorGenerator)))
      messages phases (.ended (.error error)) (.running (.receive waiting))) :
    AlwaysFails suite usable garblerTask evaluatorTask garblerGenerator evaluatorGenerator
      error := by
  obtain ⟨_, _, course, _⟩ := on_course joint
  exact ⟨course.leads_to_end_of_garbler, carriedOut_of_failure course⟩

variable {garblerEvents : List (Event (Garbler.Phase suite))}
  {evaluatorEvents : List (Event (Evaluator.Phase suite))}
  {final : Network (Garbler.Phase suite) Outcome (Evaluator.Phase suite) Outcome}

/-- A run in continuous mode in which both parties succeed is a duet: the garbler has sent the
messages of its setup and the batches of the duet, and its slices have ended as those of the duet. -/
theorem duet_of_entrance {message : Bytes} {garblerTransfer evaluatorTransfer : LabelTransfer suite}
    {rest : suite.Generator}
    (entrance : Entrance garblerGenerator evaluatorGenerator message garblerTransfer
      evaluatorTransfer rest)
    (lawful : suite.Lawful) (continuous : Continuous garblerTask evaluatorTask)
    (run : Network.Run (parties suite usable garblerTask evaluatorTask)
      (start suite usable garblerTask evaluatorTask garblerGenerator evaluatorGenerator)
      garblerEvents evaluatorEvents final) {first second : Outputs}
    (garblerEnds : final.garbler = .ended (.ok first))
    (evaluatorEnds : final.evaluator = .ended (.ok second)) :
    ∃ drafts revealed outputs messages,
      Duet.Whole garblerTask evaluatorTask garblerGenerator drafts revealed outputs ∧
      first = { revealed } ∧ second = { revealed, evaluatorOnly := outputs } ∧
      Event.sent garblerEvents = [garblerTask.announcement, message] ++ messages ∧
      Event.stream garblerEvents = streamEntries 0 (drafts.map Prod.fst) ∧
      List.Forall₂ (fun phase draft => Garbler.Ends garblerTask draft.2 phase)
        (Event.begun garblerEvents) drafts := by
  obtain ⟨drafts, revealed, outputs, duet, same, sameToo⟩ :=
    continuous.duet_of_becomes lawful run.becomes garblerEnds evaluatorEnds
  obtain ⟨messages, phases, joint, carries, ends⟩ :=
    @Entrance.continuous suite usable _ _ _ _ _ _ _ _ _ _ _ entrance lawful continuous duet
  obtain ⟨garblerAhead, _, course, sent, rfl⟩ := on_course joint
  obtain rfl := course.garbler_of_run run garblerEnds
  rw [← sent] at carries
  exact ⟨drafts, revealed, outputs, messages, duet, same, sameToo, sent, carries, ends⟩

/-- A run in continuous mode in which both parties succeed is a duet: the garbler has sent the
batches of the duet, and its slices have ended as those of the duet. -/
theorem duet_of_run (lawful : suite.Lawful) (continuous : Continuous garblerTask evaluatorTask)
    (run : Network.Run (parties suite usable garblerTask evaluatorTask)
      (start suite usable garblerTask evaluatorTask garblerGenerator evaluatorGenerator)
      garblerEvents evaluatorEvents final) {first second : Outputs}
    (garblerEnds : final.garbler = .ended (.ok first))
    (evaluatorEnds : final.evaluator = .ended (.ok second)) :
    ∃ drafts revealed outputs,
      Duet.Whole garblerTask evaluatorTask garblerGenerator drafts revealed outputs ∧
      first = { revealed } ∧ second = { revealed, evaluatorOnly := outputs } ∧
      Event.stream garblerEvents = streamEntries 0 (drafts.map Prod.fst) ∧
      List.Forall₂ (fun phase draft => Garbler.Ends garblerTask draft.2 phase)
        (Event.begun garblerEvents) drafts := by
  obtain ⟨_, _, _, _, entrance⟩ := agree_enter lawful garblerGenerator evaluatorGenerator
  obtain ⟨drafts, revealed, outputs, _, duet, same, sameToo, _, stream, ends⟩ :=
    duet_of_entrance entrance lawful continuous run garblerEnds evaluatorEnds
  exact ⟨drafts, revealed, outputs, duet, same, sameToo, stream, ends⟩

/-- Both modes agree. If both parties succeed in some run in continuous mode in which no slice ends
with a restart, then parties with the same program, inputs and time slice always come to the same
outputs in buffered mode, whatever their generators are, and a garbler with the same generator sends
the same batches. If some slice ends with a restart, then the garbler always refuses in buffered
mode. The store of the evaluator must be usable. -/
theorem modes_agree (lawful : suite.Lawful)
    {bufferedGarbler bufferedEvaluator : Task} (continuous : Continuous garblerTask evaluatorTask)
    (buffered : Buffered bufferedGarbler bufferedEvaluator)
    (garblers : garblerTask.Resembles bufferedGarbler)
    (evaluators : evaluatorTask.Resembles bufferedEvaluator) {storage : Storage}
    (selected : Storage.select usable bufferedEvaluator.settings.storeDirectory = .ok storage)
    (run : Network.Run (parties suite usable garblerTask evaluatorTask)
      (start suite usable garblerTask evaluatorTask garblerGenerator evaluatorGenerator)
      garblerEvents evaluatorEvents final) {first second : Outputs}
    (garblerEnds : final.garbler = .ended (.ok first))
    (evaluatorEnds : final.evaluator = .ended (.ok second)) :
    ((∀ phase ∈ Event.begun garblerEvents, ¬Garbler.Ends garblerTask .restart phase) →
      (∀ otherGarbler otherEvaluator : suite.Generator,
        AlwaysSucceeds suite usable bufferedGarbler bufferedEvaluator otherGarbler otherEvaluator
          first second) ∧
      ∀ (otherEvaluator : suite.Generator) garblerOthers evaluatorOthers last result,
        Network.Run (parties suite usable bufferedGarbler bufferedEvaluator)
            (start suite usable bufferedGarbler bufferedEvaluator garblerGenerator otherEvaluator)
            garblerOthers evaluatorOthers last →
          last.garbler = .ended result →
            Event.stream garblerOthers = Event.stream garblerEvents) ∧
    ((∃ phase ∈ Event.begun garblerEvents, Garbler.Ends garblerTask .restart phase) →
      ∀ otherGarbler otherEvaluator : suite.Generator,
        AlwaysFails suite usable bufferedGarbler bufferedEvaluator otherGarbler otherEvaluator
          (.settings (.restartInBufferedMode .garbler))) := by
  obtain ⟨drafts, revealed, outputs, duet, rfl, rfl, stream, ends⟩ :=
    duet_of_run lawful continuous run garblerEnds evaluatorEnds
  have whole := duet.resembled garblers evaluators
  constructor
  · intro never
    have absent : Break.restart ∉ drafts.map Prod.snd := by
      rw [← Garbler.exists_ends_iff ends]
      rintro ⟨phase, begun, restart⟩
      exact never phase begun restart
    constructor
    · intro otherGarbler otherEvaluator
      obtain ⟨otherDrafts, other, endings⟩ := whole.relabeled otherGarbler
      obtain ⟨_, _, joint, _⟩ := other.buffered lawful buffered selected
        (Duet.ne_of_not_mem (endings ▸ absent)) otherEvaluator
      exact alwaysSucceeds_of_joint joint
    · intro otherEvaluator garblerOthers evaluatorOthers last result otherRun ended
      obtain ⟨_, _, joint, carries⟩ := whole.buffered lawful buffered selected
        (Duet.ne_of_not_mem absent) otherEvaluator
      obtain ⟨_, _, course, rfl, _⟩ := on_course joint
      obtain rfl := course.garbler_of_run otherRun ended
      exact carries.trans stream.symm
  · intro restarts otherGarbler otherEvaluator
    rw [Garbler.exists_ends_iff ends] at restarts
    obtain ⟨otherDrafts, other, endings⟩ := whole.relabeled otherGarbler
    rw [← endings] at restarts
    obtain ⟨_, _, _, joint⟩ := other.refused lawful buffered selected
      (List.mem_map.mp restarts) otherEvaluator
    exact alwaysFails_of_joint joint

end

/-- If the reference interpreter finishes the program then there is a run in continuous mode in which
both parties succeed. No slice of it ends with a restart if no instruction needs a value that was
revealed before it. -/
theorem exists_run (lawful : suite.Lawful) {garblerTask evaluatorTask : Task}
    (continuous : Continuous garblerTask evaluatorTask)
    (garblerGenerator evaluatorGenerator : suite.Generator) {path : List Instruction}
    {final : Reference}
    (finishes : Reference.Finishes garblerTask.program
      (.start garblerTask.program garblerTask.inputs evaluatorTask.inputs) path final)
    (masks : (path.map Instruction.width).sum < UInt64.size)
    (values : final.revealed.length < UInt64.size) :
    ∃ garblerEvents evaluatorEvents network,
      Network.Run (parties suite usable garblerTask evaluatorTask)
        (start suite usable garblerTask evaluatorTask garblerGenerator evaluatorGenerator)
        garblerEvents evaluatorEvents network ∧
      network.garbler = .ended (.ok { revealed := final.revealed }) ∧
      network.evaluator =
        .ended (.ok { revealed := final.revealed, evaluatorOnly := final.outputs }) ∧
      (Instruction.NeverWaits ∅ path →
        ∀ phase ∈ Event.begun garblerEvents, ¬Garbler.Ends garblerTask .restart phase) := by
  obtain ⟨_, _, _, _, _, drafts, enters, partners, duet, free⟩ :=
    continuous.agree_duet lawful garblerGenerator evaluatorGenerator finishes masks values
  have entered := @Continuous.joint_enter suite usable _ _ continuous _ _ _ _ _ _ _ enters
  obtain ⟨messages, phases, played, _, ends⟩ := duet.continuous lawful continuous partners
  obtain ⟨garblerAhead, _, course, _, begun⟩ := on_course (entered.trans played)
  obtain ⟨garblerEvents, evaluatorEvents, network, run, garblerEnds, evaluatorEnds⟩ :=
    course.leads.exists_run
  obtain rfl := course.garbler_of_run run garblerEnds
  rw [← List.singleton_append] at ends
  rw [← begun] at ends
  refine ⟨_, evaluatorEvents, network, run, garblerEnds, evaluatorEnds, fun never => ?_⟩
  rintro phase member restart
  obtain ⟨draft, inside, same⟩ := List.mem_map.mp
    ((Garbler.exists_ends_iff ends .restart).mp ⟨phase, member, restart⟩)
  exact free never draft inside same

/-- Both parties of the conjunction have to wait for its value in the first slice. -/
theorem conjunction_restarts (garblerGenerator evaluatorGenerator : Suite.exponents.Generator)
    {garblerEvents : List (Event (Garbler.Phase Suite.exponents))}
    {evaluatorEvents : List (Event (Evaluator.Phase Suite.exponents))}
    {final : Network (Garbler.Phase Suite.exponents) Outcome (Evaluator.Phase Suite.exponents)
      Outcome}
    (run : Network.Run (parties Suite.exponents usable .ofConjunction .ofConjunction)
      (start Suite.exponents usable .ofConjunction .ofConjunction garblerGenerator
        evaluatorGenerator) garblerEvents evaluatorEvents final) {first second : Outputs}
    (garblerEnds : final.garbler = .ended (.ok first))
    (evaluatorEnds : final.evaluator = .ended (.ok second)) :
    ∃ phase ∈ Event.begun garblerEvents, Garbler.Ends .ofConjunction .restart phase := by
  obtain ⟨drafts, revealed, outputs, duet, _, _, _, ends⟩ :=
    duet_of_run Suite.exponents_lawful .ofConjunction run garblerEnds evaluatorEnds
  rw [Garbler.exists_ends_iff ends]
  have waits : (Machine.execute
      (GarblingState.backend Suite.exponents (Garbler.drawnOffset garblerGenerator))
      Task.ofConjunction.program Task.ofConjunction.settings.timeSlice.toNat
      (.start Task.ofConjunction.program
        { generator := Garbler.enteredGenerator garblerGenerator
          inputs := Task.ofConjunction.inputs })).1 = .ok .restart := rfl
  cases duet with
  | done portion few => cases waits.symm.trans (congrArg Prod.fst portion.garbles)
  | time portion rest => cases waits.symm.trans (congrArg Prod.fst portion.garbles)
  | restart portion few rest => exact .head _

end Run

theorem Continuous.ofProduct : Continuous (.ofProduct .continuous) (.ofProduct .continuous) :=
  ⟨.ofProduct .continuous, rfl⟩

theorem Buffered.ofProduct : Buffered (.ofProduct .buffered) (.ofProduct .buffered) :=
  ⟨.ofProduct .buffered, rfl⟩

/-- The task of a party with a set bit, in buffered mode. -/
def Task.ofBufferedConjunction : Task := .ofSettings { mode := .buffered } .conjunction [true]

theorem Buffered.ofConjunction : Buffered .ofBufferedConjunction .ofBufferedConjunction :=
  ⟨⟨rfl, rfl, rfl, rfl, rfl⟩, rfl⟩

/-- The product needs no restart, so both parties learn its value in buffered mode as well. The
conjunction needs one, so the garbler refuses it in buffered mode. -/
theorem Run.product_conjunction_agree :
    let suite := Suite.exponents
    let usable : String → Bool := fun _ => true
    let generator : suite.Generator := ChaCha20.Generator.ofSeed []
    suite.Lawful ∧
    (Continuous (.ofProduct .continuous) (.ofProduct .continuous) ∧
      Buffered (.ofProduct .buffered) (.ofProduct .buffered) ∧
      (Task.ofProduct .continuous).Resembles (.ofProduct .buffered) ∧
      Storage.select usable (Task.ofProduct .buffered).settings.storeDirectory = .ok .memory ∧
      ∃ garblerEvents evaluatorEvents final,
        Network.Run (parties suite usable (.ofProduct .continuous) (.ofProduct .continuous))
          (start suite usable (.ofProduct .continuous) (.ofProduct .continuous) generator generator)
          garblerEvents evaluatorEvents final ∧
        final.garbler = .ended (.ok { revealed := [1] }) ∧
        final.evaluator = .ended (.ok { revealed := [1] }) ∧
        (∀ phase ∈ Event.begun garblerEvents,
          ¬Garbler.Ends (.ofProduct .continuous) .restart phase) ∧
        AlwaysSucceeds suite usable (.ofProduct .buffered) (.ofProduct .buffered) generator
          generator { revealed := [1] } { revealed := [1] }) ∧
    (Continuous .ofConjunction .ofConjunction ∧
      Buffered .ofBufferedConjunction .ofBufferedConjunction ∧
      Task.ofConjunction.Resembles .ofBufferedConjunction ∧
      Storage.select usable Task.ofBufferedConjunction.settings.storeDirectory = .ok .memory ∧
      ∃ garblerEvents evaluatorEvents final,
        Network.Run (parties suite usable .ofConjunction .ofConjunction)
          (start suite usable .ofConjunction .ofConjunction generator generator)
          garblerEvents evaluatorEvents final ∧
        final.garbler = .ended (.ok { revealed := [1] }) ∧
        final.evaluator = .ended (.ok { revealed := [1] }) ∧
        (∃ phase ∈ Event.begun garblerEvents, Garbler.Ends .ofConjunction .restart phase) ∧
        AlwaysFails suite usable .ofBufferedConjunction .ofBufferedConjunction generator generator
          (.settings (.restartInBufferedMode .garbler))) := by
  intro suite usable generator
  have lawful : suite.Lawful := Suite.exponents_lawful
  have product : (Task.ofProduct .continuous).Resembles (.ofProduct .buffered) := ⟨rfl, rfl, rfl⟩
  have conjunction : Task.ofConjunction.Resembles .ofBufferedConjunction := ⟨rfl, rfl, rfl⟩
  have productStore : Storage.select usable (Task.ofProduct .buffered).settings.storeDirectory =
      .ok .memory := rfl
  have conjunctionStore : Storage.select usable
      Task.ofBufferedConjunction.settings.storeDirectory = .ok .memory := rfl
  refine ⟨lawful, ⟨.ofProduct, .ofProduct, product, productStore, ?_⟩, .ofConjunction,
    .ofConjunction, conjunction, conjunctionStore, ?_⟩
  · obtain ⟨garblerEvents, evaluatorEvents, final, run, garblerEnds, evaluatorEnds, free⟩ :=
      exists_run lawful .ofProduct generator generator Reference.finishes_product (by decide)
        (by decide)
    have never := free Instruction.neverWaits_product
    exact ⟨garblerEvents, evaluatorEvents, final, run, garblerEnds, evaluatorEnds, never,
      ((modes_agree lawful .ofProduct .ofProduct product product productStore run garblerEnds
        evaluatorEnds).1 never).1 generator generator⟩
  · obtain ⟨garblerEvents, evaluatorEvents, final, run, garblerEnds, evaluatorEnds, _⟩ :=
      exists_run lawful .ofConjunction generator generator Reference.finishes_conjunction (by decide)
        (by decide)
    have restarts := conjunction_restarts generator generator run garblerEnds evaluatorEnds
    exact ⟨garblerEvents, evaluatorEvents, final, run, garblerEnds, evaluatorEnds, restarts,
      (modes_agree lawful .ofConjunction .ofConjunction conjunction conjunction conjunctionStore
        run garblerEnds evaluatorEnds).2 restarts generator generator⟩

end Garbling
