import Mathlib
import Garbling.Proofs.InputRounds
import Garbling.Proofs.Presenting
import Garbling.Proofs.Utterances

/-!
# What the garbler sends

Whatever the other party does, the garbler sends two messages in its setup, and then the batch of
each slice. The other messages of a slice are the labels of inputs, and the tag that announces the
end after the last slice.
-/

namespace Garbling

open Session

variable {suite : Suite}

namespace BaseTransfer

variable {σ : Type}

theorem mute_decodePoint (bytes : Block 32) :
    (decodePoint suite bytes : Session σ suite.Point).Mute := by
  unfold decodePoint
  split
  · exact mute_pure _
  · exact mute_throw _

theorem mute_hideAll (opening : suite.Point) (index : Nat) (choices : List Bool) :
    (hideAll suite opening index choices).Mute := by
  induction choices generalizing index with
  | nil => exact mute_pure _
  | cons choice rest inductionHypothesis =>
      refine Mute.bind (mute_modifyGet _) fun secret => ?_
      exact Mute.bind (inductionHypothesis _) fun others => mute_pure _

/-- A receiver sends one message at most. -/
theorem utters_receive (choices : List Bool) (generator : suite.Generator) :
    (receive suite choices).Utters (·.length ≤ 1) generator := by
  refine Mute.then (mute_receive _ _) (Nat.zero_le 1) fun _ bytes _ _ => ?_
  refine Mute.then (mute_decodePoint _) (Nat.zero_le 1) fun _ opening _ _ => ?_
  refine Mute.then (mute_hideAll _ _ _) (Nat.zero_le 1) fun _ hidden _ _ => ?_
  refine Utters.then_mute (utters_send _ _ (Nat.zero_le 1) le_rfl) fun _ => ?_
  exact Mute.bind (mute_receiveList _ _ _) fun ciphertexts => mute_pure _

end BaseTransfer

namespace LabelTransfer

variable {offset : Offset} {transfer final : LabelTransfer suite}

/-- The setup of the garbler's side sends one message at most. -/
theorem utters_setup (offset : Offset) (start : LabelTransfer suite × suite.Generator) :
    (setup (some offset)).Utters (·.length ≤ 1) start := by
  refine Utters.then_mute (Utters.zoom ?_) fun _ => mute_modify _
  refine Mute.then mute_get (Nat.zero_le 1) fun _ found _ _ => ?_
  cases found.1 with
  | sender | receiver => exact (mute_throw _).utters (Nat.zero_le 1)
  | idle =>
      refine Utters.then_mute (Utters.zoom ?_) fun _ => mute_modify _
      exact Utters.then_mute (BaseTransfer.utters_receive _ _) fun _ => mute_pure _

/-- The garbler's side has been set up, and nothing in its queue is empty. -/
structure Serving (transfer : LabelTransfer suite) : Prop where
  sender : ∃ offset columns, transfer.extension = .sender offset columns
  filled : ∀ zeroLabels ∈ transfer.queued, zeroLabels ≠ []

theorem Serving.enqueue (serving : transfer.Serving) (zeroLabels : List Label) :
    (transfer.enqueue zeroLabels).Serving := by
  rw [LabelTransfer.enqueue_eq]
  refine ⟨serving.sender, fun queued member => ?_⟩
  rcases List.mem_append.mp member with old | new
  · exact serving.filled queued old
  · split at new
    · cases new
    · next some =>
        rw [List.mem_singleton.mp new]
        rintro rfl
        exact some rfl

/-- The sender sends nothing in a round of transfers. -/
theorem utters_extend (transfer : LabelTransfer suite) {columns : List suite.Generator}
    (sender : transfer.extension = .sender offset columns) (count : Nat) :
    (extend count []).Utters (· = []) transfer := by
  refine Utters.zoom (Mute.then mute_get rfl fun _ found _ got => ?_)
  obtain ⟨_, rfl, rfl⟩ := get_succeeds.mp got
  rw [sender]
  refine Mute.bind (mute_receiveList _ _ _) (fun masked => ?_) _
  refine Mute.bind (mute_set _) fun _ => ?_
  exact Mute.bind (mute_allowed _) fun columns => mute_pure _

/-- Serving some batches, none of which is empty, sends messages with labels. -/
theorem utters_serveAll {columns : List suite.Generator} {batches : List (List Label)}
    (sender : transfer.extension = .sender offset columns)
    (filled : ∀ zeroLabels ∈ batches, zeroLabels ≠ []) :
    (serveAll batches).Utters Transcript.Long transfer := by
  induction batches generalizing transfer columns with
  | nil => exact (mute_pure ()).utters nofun
  | cons zeroLabels batches inductionHypothesis =>
      obtain ⟨some, others⟩ := List.forall_mem_cons.mp filled
      refine Mute.then (mute_modify _) nofun fun _ _ middle left => ?_
      obtain ⟨rfl, rfl⟩ := modify_succeeds.mp left
      have silent := utters_extend { transfer with queued := batches } sender zeroLabels.length
      refine Utters.bind (silent.of_nothing nofun) fun _ rows _ extended => ?_
      obtain ⟨message, columnsAfter, rfl, length, rfl⟩ := sender_of_extend extended sender
      have long : Transcript.Long
          [Layout.fixed.labels.encode (zeroLabels.zipWith (· ^^^ ·) rows)] := by
        refine List.forall_mem_singleton.mpr (Layout.length_labels_gt ?_)
        rw [← List.length_pos_iff, List.length_zipWith, length, Nat.min_self, List.length_pos_iff]
        exact some
      refine Utters.bind (utters_send _ _ nofun long) fun _ _ _ sent => ?_
      obtain ⟨rfl, rfl⟩ := send_succeeds.mp sent
      refine (inductionHypothesis rfl others).mono fun rest longToo => ?_
      exact List.forall_mem_append.mpr ⟨nofun, List.forall_mem_append.mpr ⟨long, longToo⟩⟩

/-- Serving the queue sends messages with labels. -/
theorem Serving.utters_serve (serving : transfer.Serving) :
    serve.Utters Transcript.Long transfer := by
  obtain ⟨offset, columns, sender⟩ := serving.sender
  refine Mute.then mute_get nofun fun _ found _ got => ?_
  obtain ⟨_, rfl, rfl⟩ := get_succeeds.mp got
  exact utters_serveAll sender serving.filled

/-- Serving the queue leaves the garbler's side as it needs to be. -/
theorem Serving.of_serve {exchanges : List Exchange} (serving : transfer.Serving)
    (succeeds : serve.Succeeds transfer exchanges () final) : final.Serving := by
  obtain ⟨offset, columns, sender⟩ := serving.sender
  obtain ⟨_, _, _, _, rfl, got, serves⟩ := bind_succeeds.mp succeeds
  obtain ⟨rfl, rfl, rfl⟩ := get_succeeds.mp got
  obtain ⟨_, columnsAfter, _, _, rfl⟩ := served_of_serveAll serves sender rfl
  exact ⟨⟨offset, columnsAfter, rfl⟩, nofun⟩

end LabelTransfer

namespace Garbler

variable {task : Task} {garbler final : Garbler suite} {exchanges : List Exchange}
  {ending : Break} {machine : Machine Label (GarblingState suite)}

/-- The setup of the garbler sends two messages at most. -/
theorem utters_enter (task : Task) (generator : suite.Generator) :
    (enter task).Utters (·.length ≤ 2) (({}, generator) : LabelTransfer suite × suite.Generator) := by
  have shakes : (handshake task.typed task.settings : Session
      (LabelTransfer suite × suite.Generator) Unit).Utters (·.length ≤ 1) ({}, generator) := by
    unfold handshake
    split
    · exact (mute_throw _).utters (Nat.zero_le 1)
    · refine Utters.then_mute (utters_send _ _ (Nat.zero_le 1) le_rfl) fun _ => ?_
      refine Mute.bind (mute_receive _ _) fun found => ?_
      have last : (if found.2 ≠ task.settings.timeSlice then
          throw (.settings (.timeSliceMismatch task.settings.timeSlice found.2))
        else pure () : Session (LabelTransfer suite × suite.Generator) Unit).Mute := by
        split
        · exact mute_throw _
        · exact mute_pure _
      dsimp only
      split
      · exact (mute_throw _).bind fun (_ : PUnit) => last
      · exact last
  refine (shakes.mono fun _ one => one.trans one_le_two).bind fun first _ middle succeeds => ?_
  have one := shakes.of_succeeds succeeds
  refine Mute.then (mute_modifyGet _) (by simpa using one.trans one_le_two)
    fun _ offset _ _ => ?_
  refine Utters.then_mute ((LabelTransfer.utters_setup offset _).mono fun rest two => ?_)
    fun _ => Mute.bind mute_get fun _ => mute_pure _
  rw [List.length_append]
  omega

/-- The garbler has sent two messages when it has been set up. -/
theorem sent_of_enter {generator : suite.Generator}
    {after : LabelTransfer suite × suite.Generator}
    (succeeds : (enter task).Succeeds ({}, generator) exchanges garbler after) :
    ∃ announcement points offset transfer rest,
      Exchange.outgoing exchanges = [announcement, points] ∧
      garbler = .entered task offset transfer rest ∧ transfer.Serving := by
  obtain ⟨_, _, _, _, offset, rfl, shakes, set, rfl⟩ := of_enter succeeds
  obtain ⟨rfl, announcement, rfl⟩ := exchanges_of_handshake shakes
  obtain ⟨_, points, _, columns, rfl, sender, queue⟩ := LabelTransfer.sender_of_setup set rfl
  refine ⟨_, points, offset, after.1, after.2, rfl, rfl, ⟨offset, columns, sender⟩, ?_⟩
  rw [queue]
  nofun

theorem mute_executeSlice (task : Task) : (executeSlice task : Session (Garbler suite) Break).Mute :=
  fun _ => utters_done rfl rfl

theorem mute_receiveOpenings : (receiveOpenings : Session (Garbler suite) Unit).Mute := by
  refine Mute.bind (mute_receive _ _) fun openings => Mute.bind mute_get fun garbler => ?_
  exact Mute.bind (mute_allowed _) fun processor => mute_set _

/-- By a certain time the garbler has sent the beginning of its batch. -/
theorem utters_sendSlice (garbler : Garbler suite) :
    sendSlice.Utters
      (· <+: BatchStream.messages (garbler.machine.backend.draft.batch garbler.nextBatch))
      garbler := by
  refine Mute.then mute_get List.nil_prefix fun _ found _ got => ?_
  obtain ⟨_, rfl, rfl⟩ := get_succeeds.mp got
  refine Mute.then (mute_set _) List.nil_prefix fun _ _ _ _ => ?_
  refine Utters.then_mute (Utters.bind ?_ fun _ _ _ announced => ?_) fun _ => mute_modify _
  · exact utters_sendBytes _ List.nil_prefix ⟨_, rfl⟩
  · obtain ⟨rfl, rfl⟩ := sendBytes_succeeds.mp announced
    refine Utters.bind (utters_send _ _ ⟨_, rfl⟩ ⟨_, rfl⟩) fun _ _ _ sent => ?_
    obtain ⟨rfl, rfl⟩ := send_succeeds.mp sent
    exact utters_send _ _ ⟨_, rfl⟩ ⟨[], rfl⟩

/-- Serving inputs sends messages with labels. -/
theorem utters_serveInputs (garbler : Garbler suite) (serving : garbler.transfer.Serving) :
    serveInputs.Utters Transcript.Long garbler :=
  Utters.zoom serving.utters_serve

/-- The batch that is sent for the slice which begins in the phase, and the zero labels that are
queued with it. There is none if the slice fails, and none for a restart in buffered mode. -/
def issued (task : Task) : Phase suite → Option (BatchPair × List Label)
  | .entering _ => none
  | .slicing garbler =>
      match Machine.execute (GarblingState.backend suite garbler.offset) task.program
          task.settings.timeSlice.toNat garbler.machine with
      | (.error _, _) => none
      | (.ok ending, machine) =>
          if task.typed = .buffered ∧ ending = .restart then none
          else
            let (batch, zeroLabels, _) :=
              machine.backend.draft.take garbler.nextBatch machine.backend.gateCount
            some (batch, zeroLabels)

theorem issued_slicing
    (executes : Machine.execute (GarblingState.backend suite garbler.offset) task.program
      task.settings.timeSlice.toNat garbler.machine = (.ok ending, machine))
    (sends : task.typed = .continuous ∨ ending ≠ .restart) :
    issued task (.slicing garbler) = some (machine.backend.draft.batch garbler.nextBatch,
      machine.backend.draft.evaluatorInputs.toList) := by
  have allowed : ¬(task.typed = .buffered ∧ ending = .restart) := by
    rintro ⟨buffered, restart⟩
    rcases sends with continuous | other
    · cases continuous.symm.trans buffered
    · exact other restart
  simp only [issued, executes, if_neg allowed]
  rfl

/-- What is issued for a slice is taken out of its draft, and it is what the garbler sends and
queues. -/
theorem of_issued {issue : BatchPair × List Label}
    (found : issued task (.slicing garbler) = some issue) :
    ∃ ending machine,
      Machine.execute (GarblingState.backend suite garbler.offset) task.program
        task.settings.timeSlice.toNat garbler.machine = (.ok ending, machine) ∧
      issue = (machine.backend.draft.batch garbler.nextBatch,
        machine.backend.draft.evaluatorInputs.toList) ∧
      ∀ exchanges final, sendSlice.Succeeds { garbler with machine } exchanges () final →
        exchanges = (BatchStream.messages issue.1).map Exchange.out ∧
          final.transfer = { garbler.transfer with
            queued := garbler.transfer.queued ++ if issue.2.isEmpty then [] else [issue.2] } := by
  simp only [issued] at found
  split at found
  · cases found
  · next ending machine executes =>
      by_cases refused : task.typed = .buffered ∧ ending = .restart
      · rw [if_pos refused] at found
        cases found
      · rw [if_neg refused] at found
        cases found
        refine ⟨ending, machine, executes, rfl, fun exchanges final sends => ?_⟩
        obtain ⟨rfl, rfl⟩ := of_sendSlice sends
        exact ⟨rfl, LabelTransfer.enqueue_eq _ _⟩

/-- The tags and batches that are sent for some issues. -/
def streamOf (issues : List (BatchPair × List Label)) : List Entry :=
  issues.flatMap (·.1.onArrival.entries)

section

variable {batch : BatchPair} {sent rest : List Bytes} {entries : List Entry}

theorem stream_of_beginning (writable : batch.Writable)
    (beginning : sent <+: BatchStream.messages batch) :
    (Transcript.ofStream sent).filter Entry.inStream <+: batch.onArrival.entries ++ [.done] := by
  obtain ⟨rest, whole⟩ := beginning
  have told := (Transcript.carries_arrived writable).ofStream
  rw [← whole] at told
  rw [← told]
  exact ((Transcript.ofStream_append sent rest).filter _).trans (List.prefix_append _ _)

theorem stream_of_carries (writable : batch.Writable) (carries : Transcript.Carries rest entries)
    (ends : entries <+: [.done]) :
    (Transcript.ofStream (BatchStream.messages batch ++ rest)).filter Entry.inStream <+:
      batch.onArrival.entries ++ [.done] := by
  rw [((Transcript.carries_arrived writable).append carries).ofStream]
  exact (List.prefix_append_right_inj _).mpr ends

end

/-- Whether a slice goes on or fails, its messages tell the beginning of its batch, or its batch,
and perhaps the end. -/
theorem utters_slice (serving : garbler.transfer.Serving)
    (writable : ∀ issue ∈ issued task (.slicing garbler), issue.1.Writable) :
    (slice task).Utters (fun sent => (Transcript.ofStream sent).filter Entry.inStream <+:
      streamOf (issued task (.slicing garbler)).toList ++ [.done]) garbler := by
  unfold slice
  cases mode : task.typed with
  | continuous =>
      refine Mute.then (mute_executeSlice task) List.nil_prefix fun _ ending _ executed => ?_
      obtain ⟨machine, rfl, executes, rfl⟩ := of_executeSlice executed
      rw [issued_slicing executes (.inl mode)] at writable ⊢
      have fits := writable _ rfl
      rw [streamOf, Option.toList_some, List.flatMap_singleton]
      refine Utters.bind ((utters_sendSlice _).mono fun _ => stream_of_beginning fits)
        fun _ _ _ sent => ?_
      obtain ⟨rfl, rfl⟩ := of_sendSlice sent
      rw [Exchange.outgoing_out]
      have serves := utters_serveInputs ({ garbler with machine }).afterBatch (serving.enqueue _)
      have serving := serves.mono fun _ long => stream_of_carries fits long.carries List.nil_prefix
      cases ending with
      | restart =>
          exact serving.then_mute fun _ => Mute.bind (mute_modify _) fun _ =>
            Mute.bind mute_receiveOpenings fun _ => mute_pure _
      | time => exact serving.then_mute fun _ => mute_pure _
      | done =>
          refine Utters.bind serving fun _ _ _ served => ?_
          have long := serves.of_succeeds served
          refine Utters.then_mute (utters_sendBytes _ ?_ ?_) fun _ =>
            Mute.bind mute_receiveOpenings fun _ => Mute.bind mute_get fun _ => mute_pure _
          · exact stream_of_carries fits (long.carries.append .nil) List.nil_prefix
          · exact stream_of_carries fits (long.carries.append Transcript.carries_done)
              List.prefix_rfl
  | buffered =>
      refine Mute.then (mute_executeSlice task) List.nil_prefix fun _ ending _ executed => ?_
      obtain ⟨machine, rfl, executes, rfl⟩ := of_executeSlice executed
      by_cases restart : ending = .restart
      · subst restart
        exact (mute_throw _).utters List.nil_prefix
      · rw [issued_slicing executes (.inr restart)] at writable ⊢
        have fits := writable _ rfl
        rw [streamOf, Option.toList_some, List.flatMap_singleton]
        have sends := (utters_sendSlice { garbler with machine }).mono fun _ =>
          stream_of_beginning fits
        cases ending with
        | restart => exact absurd rfl restart
        | time => exact sends.then_mute fun _ => mute_pure _
        | done =>
            refine Utters.bind sends fun _ _ _ sent => ?_
            obtain ⟨rfl, rfl⟩ := of_sendSlice sent
            rw [Exchange.outgoing_out]
            refine Utters.bind (utters_sendBytes _ ?_ ?_) fun _ _ _ announced => ?_
            · exact stream_of_carries fits .nil List.nil_prefix
            · exact stream_of_carries fits Transcript.carries_done List.prefix_rfl
            · obtain ⟨rfl, rfl⟩ := sendBytes_succeeds.mp announced
              have serves := utters_serveInputs ({ garbler with machine }).afterBatch
                (serving.enqueue _)
              refine Utters.then_mute (serves.mono fun _ long => ?_) fun _ =>
                Mute.bind mute_receiveOpenings fun _ => Mute.bind mute_get fun _ => mute_pure _
              exact stream_of_carries fits (Transcript.carries_done.append long.carries)
                List.prefix_rfl

/-- What a garbler is like after a slice of which the batch was sent. -/
structure After (garbler : Garbler suite) (machine : Machine Label (GarblingState suite))
    (final : Garbler suite) : Prop where
  number : final.nextBatch = garbler.nextBatch + 1
  backend : final.machine.backend = machine.emptied.backend
  taint : final.machine.processor.taint = machine.processor.taint
  serving : final.transfer.Serving

/-- What a garbler does at the end of a slice, if it goes on, sends nothing and changes only its
processor. -/
theorem of_close_again {phase : Unit}
    (succeeds : (close ending).Succeeds garbler exchanges (.again phase) final) :
    Exchange.outgoing exchanges = [] ∧ ∃ processor,
      processor.taint = garbler.machine.processor.taint ∧
      final = { garbler with machine := { garbler.machine with processor } } := by
  cases ending with
  | restart =>
      obtain ⟨_, _, _, _, rfl, rewound, waits⟩ := bind_succeeds.mp succeeds
      obtain ⟨rfl, rfl⟩ := modify_succeeds.mp rewound
      obtain ⟨_, _, _, _, rfl, received, last⟩ := bind_succeeds.mp waits
      obtain ⟨_, _, _, log, rfl, _, _, rfl⟩ := of_receiveOpenings received
      obtain ⟨rfl, _, rfl⟩ := pure_succeeds.mp last
      exact ⟨rfl, { garbler.machine.processor.rewind with log }, rfl, rfl⟩
  | time =>
      obtain ⟨rfl, _, rfl⟩ := pure_succeeds.mp succeeds
      exact ⟨rfl, _, rfl, rfl⟩
  | done =>
      obtain ⟨_, _, _, _, rfl, _, waits⟩ := bind_succeeds.mp succeeds
      obtain ⟨_, _, _, _, rfl, _, told⟩ := bind_succeeds.mp waits
      obtain ⟨_, _, _, _, rfl, _, last⟩ := bind_succeeds.mp told
      cases (pure_succeeds.mp last).2.1

/-- A slice after which the garbler goes on has sent its batch and perhaps labels. -/
theorem of_slice_again {phase : Unit} (serving : garbler.transfer.Serving)
    (succeeds : (slice task).Succeeds garbler exchanges (.again phase) final) :
    ∃ ending machine labels,
      Machine.execute (GarblingState.backend suite garbler.offset) task.program
        task.settings.timeSlice.toNat garbler.machine = (.ok ending, machine) ∧
      (task.typed = .continuous ∨ ending ≠ .restart) ∧
      Exchange.outgoing exchanges =
        BatchStream.messages (machine.backend.draft.batch garbler.nextBatch) ++ labels ∧
      Transcript.Long labels ∧ After garbler machine final := by
  unfold slice at succeeds
  cases mode : task.typed with
  | continuous =>
      rw [mode] at succeeds
      obtain ⟨_, _, ending, _, rfl, executed, sends⟩ := bind_succeeds.mp succeeds
      obtain ⟨machine, rfl, executes, rfl⟩ := of_executeSlice executed
      obtain ⟨_, _, _, _, rfl, sent, serves⟩ := bind_succeeds.mp sends
      obtain ⟨rfl, rfl⟩ := of_sendSlice sent
      obtain ⟨labels, _, _, _, rfl, served, waits⟩ := bind_succeeds.mp serves
      have queue := serving.enqueue machine.backend.draft.evaluatorInputs.toList
      have long := (utters_serveInputs ({ garbler with machine }).afterBatch queue).of_succeeds
        served
      obtain ⟨transfer, serve, rfl⟩ := of_serveInputs served
      obtain ⟨silent, processor, taint, rfl⟩ := of_close_again waits
      refine ⟨ending, machine, _, executes, .inl rfl, ?_, long,
        ⟨rfl, rfl, taint, queue.of_serve serve⟩⟩
      rw [List.nil_append, Exchange.outgoing_append, Exchange.outgoing_append, silent,
        List.append_nil, Exchange.outgoing_out]
  | buffered =>
      rw [mode] at succeeds
      obtain ⟨_, _, ending, _, rfl, executed, sends⟩ := bind_succeeds.mp succeeds
      obtain ⟨machine, rfl, executes, rfl⟩ := of_executeSlice executed
      cases ending with
      | restart => exact (throw_succeeds.mp sends).elim
      | time =>
          obtain ⟨_, _, _, _, rfl, sent, last⟩ := bind_succeeds.mp sends
          obtain ⟨rfl, rfl⟩ := of_sendSlice sent
          obtain ⟨rfl, _, rfl⟩ := pure_succeeds.mp last
          refine ⟨.time, machine, [], executes, .inr Break.noConfusion, ?_, nofun,
            ⟨rfl, rfl, rfl, serving.enqueue _⟩⟩
          rw [List.append_nil, List.append_nil]
          exact Exchange.outgoing_out _
      | done =>
          obtain ⟨_, _, _, _, rfl, _, announces⟩ := bind_succeeds.mp sends
          obtain ⟨_, _, _, _, rfl, _, serves⟩ := bind_succeeds.mp announces
          obtain ⟨_, _, _, _, rfl, _, waits⟩ := bind_succeeds.mp serves
          obtain ⟨_, _, _, _, rfl, _, told⟩ := bind_succeeds.mp waits
          obtain ⟨_, _, _, _, rfl, _, last⟩ := bind_succeeds.mp told
          cases (pure_succeeds.mp last).2.1

end Garbler

end Garbling
