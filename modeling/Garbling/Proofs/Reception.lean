import Mathlib
import Garbling.Proofs.Batches
import Garbling.Proofs.ContinuousSlice
import Garbling.Proofs.Stores
import Garbling.Proofs.Visits
import Garbling.Role.Evaluator

/-!
# What the evaluator has received

Whoever the other party is: a session of the evaluator that has succeeded tells which messages
were received in its course, and how the state of the evaluator has changed. Tags and batches
come as such; every other message after the setup holds labels.
-/

namespace Garbling

open Session

variable {suite : Suite} {σ : Type} {exchanges : List Exchange}

/-- The extended transfers have been set up for a receiver. -/
def LabelTransfer.Receives (transfer : LabelTransfer suite) : Prop :=
  ∃ columns, transfer.extension = .receiver columns

/-- The messages received in the course of some exchanges tell the given tags and batches. -/
def Tells (exchanges : List Exchange) (entries : List Entry) : Prop :=
  Transcript.Carries (Exchange.incoming exchanges) entries

namespace Tells

variable {rest : List Exchange} {entries more : List Entry}

theorem nil : Tells [] [] := Transcript.Carries.nil

theorem out (message : Bytes) : Tells [.out message] [] := Transcript.Carries.nil

theorem append (one : Tells exchanges entries) (two : Tells rest more) :
    Tells (exchanges ++ rest) (entries ++ more) := by
  rw [Tells, Exchange.incoming_append]
  exact Transcript.Carries.append one two

end Tells

/-- A batch that was received has been told, and can be written down again. -/
theorem BatchStream.tells_of_receive_some {state final : σ} {batch : BatchPair}
    (succeeds : (receive : Session σ _).Succeeds state exchanges (some batch) final) :
    Tells exchanges batch.entries ∧ batch.Countable ∧ final = state := by
  obtain ⟨gates, _, masks, _, rfl, gatesRead, masksRead, rfl⟩ := exchanges_of_receive_some succeeds
  exact ⟨Transcript.carries_read gatesRead masksRead, .of_decode gatesRead masksRead, rfl⟩

theorem BatchStream.tells_of_receive_none {state final : σ}
    (succeeds : (receive : Session σ _).Succeeds state exchanges none final) :
    Tells exchanges [.done] ∧ final = state := by
  obtain ⟨rfl, rfl⟩ := exchanges_of_receive_none succeeds
  exact ⟨Transcript.carries_done, rfl⟩

namespace LabelTransfer

variable {transfer final : LabelTransfer suite} {choices : List Bool} {labels : List Label}

/-- A receiver that has received labels has asked for them with its columns, and has been sent one
for each choice. -/
theorem exchanges_of_receive {columns : List (suite.Generator × suite.Generator)}
    (receiver : transfer.extension = .receiver columns)
    (succeeds : (receive choices).Succeeds transfer exchanges labels final) :
    ∃ message masked rest,
      exchanges = [.out (Layout.fixed.columns.encode
        ((Extension.receiverColumns (Bits.pack choices) columns).1.map Prod.snd)), .into message] ∧
      Layout.fixed.labels.decode message = .ok (masked, rest) ∧ masked.length = choices.length ∧
      final = { transfer with
        extension := .receiver (Extension.receiverColumns (Bits.pack choices) columns).2 } := by
  obtain ⟨_, _, rows, _, rfl, extended, others⟩ := bind_succeeds.mp succeeds
  obtain ⟨extension, reaches, rfl⟩ := zoom_succeeds.mp extended
  rw [receiver] at reaches
  obtain ⟨_, _, _, _, rfl, got, sends⟩ := bind_succeeds.mp reaches
  obtain ⟨rfl, rfl, rfl⟩ := get_succeeds.mp got
  simp only [ne_eq, not_true, if_false] at sends
  obtain ⟨_, _, _, _, rfl, moved, sent⟩ := bind_succeeds.mp sends
  obtain ⟨rfl, rfl⟩ := set_succeeds.mp moved
  obtain ⟨_, _, _, _, rfl, out, done⟩ := bind_succeeds.mp sent
  obtain ⟨rfl, rfl⟩ := send_succeeds.mp out
  obtain ⟨rfl, _, rfl⟩ := pure_succeeds.mp done
  obtain ⟨_, _, masked, _, rfl, received, last⟩ := bind_succeeds.mp others
  obtain ⟨message, rest, decoded, length, rfl, rfl⟩ := receiveList_succeeds.mp received
  obtain ⟨rfl, _, rfl⟩ := pure_succeeds.mp last
  exact ⟨message, masked, rest, rfl, decoded, length, rfl⟩

/-- A receiver that has received labels is a receiver still, and was told nothing else. -/
theorem tells_of_receive (receives : transfer.Receives) (some : choices ≠ [])
    (succeeds : (receive choices).Succeeds transfer exchanges labels final) :
    final.Receives ∧ Tells exchanges [] := by
  obtain ⟨columns, receiver⟩ := receives
  obtain ⟨message, masked, rest, rfl, decoded, length, rfl⟩ :=
    exchanges_of_receive receiver succeeds
  refine ⟨⟨_, rfl⟩, Transcript.carries_other (Layout.labels_length_gt decoded ?_)⟩
  rintro rfl
  exact some (List.eq_nil_of_length_eq_zero length.symm)

end LabelTransfer

namespace BaseTransfer

theorem silent_decodePoint (bytes : Block 32) :
    (decodePoint suite bytes : Session σ suite.Point).Silent := by
  unfold decodePoint
  split
  · exact silent_pure _
  · exact silent_throw _

theorem silent_encryptAll (secret : suite.Scalar) (shared : suite.Point) (index : Nat)
    (pairs : List (Block 32 × Word × Word)) :
    (encryptAll suite secret shared index pairs).Silent := by
  induction pairs generalizing index with
  | nil => exact silent_pure _
  | cons pair rest inductionHypothesis =>
      refine .bind (silent_decodePoint _) fun point => ?_
      exact .bind (inductionHypothesis _) fun others => silent_pure _

theorem silent_hideAll (opening : suite.Point) (index : Nat) (choices : List Bool) :
    (hideAll suite opening index choices).Silent := by
  induction choices generalizing index with
  | nil => exact silent_pure _
  | cons choice rest inductionHypothesis =>
      refine .bind (silent_modifyGet _) fun secret => ?_
      exact .bind (inductionHypothesis _) fun others => silent_pure _

end BaseTransfer

theorem Extension.silent_drawPairs (count : Nat) : (drawPairs suite count).Silent := by
  induction count with
  | zero => exact silent_pure _
  | succ count inductionHypothesis =>
      refine .bind (silent_modifyGet _) fun first => .bind (silent_modifyGet _) fun second => ?_
      exact .bind inductionHypothesis fun others => silent_pure _

/-- A first setup is the one of the sender if there is an offset, and else the one of the receiver,
and the labels in the queue stay there. -/
theorem LabelTransfer.succeeds_of_setup {start final : LabelTransfer suite × suite.Generator}
    {offset : Option Offset} (fresh : start.1.extension = .idle)
    (succeeds : (setup offset).Succeeds start exchanges () final) :
    ∃ extension generator,
      (match offset with
        | some offset => Extension.setupSender suite offset
        | none => Extension.setupReceiver suite).Succeeds start.2 exchanges extension generator ∧
      final = ({ start.1 with extension, offset }, generator) := by
  obtain ⟨_, _, _, _, rfl, made, marked⟩ := bind_succeeds.mp succeeds
  obtain ⟨rfl, rfl⟩ := modify_succeeds.mp marked
  obtain ⟨⟨extension, generator⟩, reaches, rfl⟩ := zoom_succeeds.mp made
  obtain ⟨_, _, _, _, rfl, got, chosen⟩ := bind_succeeds.mp reaches
  obtain ⟨rfl, rfl, rfl⟩ := get_succeeds.mp got
  simp only [fresh] at chosen
  obtain ⟨_, _, _, _, rfl, drawn, kept⟩ := bind_succeeds.mp chosen
  obtain ⟨rfl, same⟩ := modify_succeeds.mp kept
  obtain ⟨_, received, rfl⟩ := zoom_succeeds.mp drawn
  cases same
  rw [List.append_nil, List.append_nil, List.nil_append]
  exact ⟨_, _, received, rfl⟩

/-- The setup of a receiver is a message to the other side, one from there, and one more to it. -/
theorem LabelTransfer.receives_of_setup {start final : LabelTransfer suite × suite.Generator}
    (fresh : start.1.extension = .idle)
    (succeeds : (setup none).Succeeds start exchanges () final) :
    final.1.Receives ∧ ∃ opening points ciphertexts,
      exchanges = [.out opening, .into points, .out ciphertexts] := by
  obtain ⟨_, _, received, rfl⟩ := succeeds_of_setup fresh succeeds
  obtain ⟨_, _, _, _, rfl, seeds, others⟩ := bind_succeeds.mp received
  obtain ⟨_, _, _, _, rfl, sent, named⟩ := bind_succeeds.mp others
  obtain ⟨rfl, rfl, rfl⟩ := pure_succeeds.mp named
  rw [Extension.silent_drawPairs _ seeds]
  obtain ⟨_, _, _, _, rfl, scalar, opened⟩ := bind_succeeds.mp sent
  obtain ⟨rfl, _, rfl⟩ := modifyGet_succeeds.mp scalar
  obtain ⟨_, _, _, _, rfl, opening, hidden⟩ := bind_succeeds.mp opened
  obtain ⟨rfl, rfl⟩ := send_succeeds.mp opening
  obtain ⟨_, _, _, _, rfl, points, encrypted⟩ := bind_succeeds.mp hidden
  obtain ⟨message, _, _, _, rfl, rfl⟩ := receiveList_succeeds.mp points
  obtain ⟨_, _, _, _, rfl, ciphertexts, last⟩ := bind_succeeds.mp encrypted
  rw [BaseTransfer.silent_encryptAll _ _ _ _ ciphertexts]
  obtain ⟨rfl, rfl⟩ := send_succeeds.mp last
  exact ⟨⟨_, rfl⟩, _, message, _, rfl⟩

/-- The handshake is one message from either side. -/
theorem exchanges_of_handshake {typed : Mode} {settings : Settings} {state final : σ}
    (succeeds : (handshake typed settings).Succeeds state exchanges () final) :
    final = state ∧ ∃ message, exchanges =
      [.out (Layout.fixed.handshake.encode (typed, settings.timeSlice)), .into message] := by
  unfold handshake at succeeds
  cases valid : settings.checkFor typed with
  | error fault =>
      rw [valid] at succeeds
      exact (throw_succeeds.mp succeeds).elim
  | ok =>
      rw [valid] at succeeds
      obtain ⟨_, _, _, _, rfl, sent, others⟩ := bind_succeeds.mp succeeds
      obtain ⟨rfl, rfl⟩ := send_succeeds.mp sent
      obtain ⟨_, _, ⟨mode, timeSlice⟩, _, rfl, received, checked⟩ := bind_succeeds.mp others
      obtain ⟨message, _, _, rfl, rfl⟩ := receive_succeeds.mp received
      by_cases sameMode : mode = typed
      · by_cases sameSlice : timeSlice = settings.timeSlice
        · simp only [sameMode, sameSlice, ne_eq, not_true, if_false] at checked
          obtain ⟨rfl, _, rfl⟩ := pure_succeeds.mp checked
          exact ⟨rfl, message, rfl⟩
        · simp only [sameMode, sameSlice, ne_eq, not_true, not_false_eq_true, if_false, if_true]
            at checked
          exact (throw_succeeds.mp checked).elim
      · simp only [sameMode, ne_eq, not_false_eq_true, if_true] at checked
        obtain ⟨_, _, _, _, _, thrown, _⟩ := bind_succeeds.mp checked
        exact (throw_succeeds.mp thrown).elim

namespace Evaluator

variable {task : Task} {evaluator final : Evaluator suite} {batch : BatchPair}

/-- The setup of the evaluator is the handshake and the setup of its transfer. -/
theorem of_enter {start rest : LabelTransfer suite × suite.Generator}
    (succeeds : (enter task).Succeeds start exchanges evaluator rest) :
    ∃ handshake setup,
      exchanges = .out task.announcement :: .into handshake :: setup ∧
      (LabelTransfer.setup none).Succeeds start setup () rest ∧
      evaluator = .entered task rest.1 := by
  obtain ⟨_, _, _, _, rfl, announced, others⟩ := bind_succeeds.mp succeeds
  obtain ⟨rfl, handshake, rfl⟩ := exchanges_of_handshake announced
  obtain ⟨setup, _, _, _, rfl, set, last⟩ := bind_succeeds.mp others
  obtain ⟨_, _, _, _, rfl, got, named⟩ := bind_succeeds.mp last
  obtain ⟨rfl, rfl, rfl⟩ := get_succeeds.mp got
  obtain ⟨rfl, rfl, rfl⟩ := pure_succeeds.mp named
  refine ⟨handshake, setup, ?_, set, rfl⟩
  rw [List.append_nil, List.append_nil]
  rfl

/-- The setup of the evaluator is two messages from the other side. -/
theorem entered_of_enter {generator : suite.Generator}
    {rest : LabelTransfer suite × suite.Generator}
    (succeeds : (enter task).Succeeds ({}, generator) exchanges evaluator rest) :
    evaluator.transfer.Receives ∧ evaluator = .entered task evaluator.transfer ∧
      ∃ handshake points, Exchange.incoming exchanges = [handshake, points] := by
  obtain ⟨handshake, _, rfl, set, rfl⟩ := of_enter succeeds
  obtain ⟨receives, _, points, _, rfl⟩ := LabelTransfer.receives_of_setup rfl set
  exact ⟨receives, rfl, handshake, points, rfl⟩

/-- The evaluator has had the choices that it has taken. -/
theorem of_takeChoices {count : UInt64} {choices : List Bool}
    (succeeds : (takeChoices count).Succeeds evaluator exchanges choices final) :
    count.toNat ≤ evaluator.inputs.length ∧ exchanges = [] ∧
      choices = evaluator.inputs.take count.toNat ∧
      final = { evaluator with inputs := evaluator.inputs.drop count.toNat } := by
  obtain ⟨_, _, _, _, rfl, got, counted⟩ := bind_succeeds.mp succeeds
  obtain ⟨rfl, read, same⟩ := get_succeeds.mp got
  rw [read, same] at counted
  by_cases few : evaluator.inputs.length < count.toNat
  · simp only [few, if_true] at counted
    obtain ⟨_, _, _, _, _, thrown, _⟩ := bind_succeeds.mp counted
    exact (throw_succeeds.mp thrown).elim
  · simp only [few, if_false] at counted
    obtain ⟨_, _, _, _, rfl, dropped, last⟩ := bind_succeeds.mp counted
    obtain ⟨rfl, rfl⟩ := modify_succeeds.mp dropped
    obtain ⟨rfl, rfl, rfl⟩ := pure_succeeds.mp last
    exact ⟨Nat.le_of_not_lt few, rfl, rfl, rfl⟩

/-- The evaluator has received the labels of as many inputs as it was asked for. -/
theorem of_receiveInputLabels {count : UInt64} {labels : List Label}
    (receives : evaluator.transfer.Receives)
    (succeeds : (receiveInputLabels count).Succeeds evaluator exchanges labels final) :
    ∃ transfer, transfer.Receives ∧ count.toNat ≤ evaluator.inputs.length ∧
      final = { evaluator with transfer, inputs := evaluator.inputs.drop count.toNat } ∧
      Tells exchanges [] := by
  unfold receiveInputLabels at succeeds
  by_cases none : count = 0
  · simp only [none, if_true] at succeeds
    obtain ⟨rfl, rfl, rfl⟩ := pure_succeeds.mp succeeds
    subst none
    exact ⟨_, receives, Nat.zero_le _, rfl, .nil⟩
  · simp only [none, if_false] at succeeds
    obtain ⟨_, _, choices, _, rfl, taken, received⟩ := bind_succeeds.mp succeeds
    obtain ⟨enough, rfl, rfl, rfl⟩ := of_takeChoices taken
    obtain ⟨transfer, part, rfl⟩ := zoom_succeeds.mp received
    have some : evaluator.inputs.take count.toNat ≠ [] := by
      intro nothing
      have length := List.length_take_of_le enough
      rw [nothing] at length
      exact none (UInt64.toNat_inj.mp length.symm)
    obtain ⟨still, tells⟩ := LabelTransfer.tells_of_receive receives some part
    exact ⟨transfer, still, enough, rfl, tells⟩

/-- A batch is loaded if it has the right position and belongs to its labels. -/
theorem of_load {labels : List Label}
    (succeeds : (load batch labels).Succeeds evaluator exchanges () final) :
    evaluator.checkPosition batch.gates = .ok () ∧ exchanges = [] ∧
      ∃ reader, BatchReader.ofBatch batch labels = .ok reader ∧
        final = { evaluator with
          machine := evaluator.machine.loaded reader
          nextBatch := evaluator.nextBatch + 1 } := by
  obtain ⟨_, _, _, _, rfl, got, others⟩ := bind_succeeds.mp succeeds
  obtain ⟨rfl, read, same⟩ := get_succeeds.mp got
  rw [read, same] at others
  obtain ⟨_, _, _, _, rfl, checked, made⟩ := bind_succeeds.mp others
  obtain ⟨position, rfl, rfl⟩ := allowed_succeeds.mp checked
  obtain ⟨_, _, reader, _, rfl, allows, last⟩ := bind_succeeds.mp made
  obtain ⟨belongs, rfl, rfl⟩ := allowed_succeeds.mp allows
  obtain ⟨rfl, rfl⟩ := set_succeeds.mp last
  exact ⟨position, rfl, reader, belongs, rfl⟩

theorem of_executeSlice {ending : Break}
    (succeeds : (executeSlice task).Succeeds evaluator exchanges ending final) :
    ∃ after, Machine.execute (EvaluationState.backend suite.pad) task.program
        task.settings.timeSlice.toNat evaluator.machine = (.ok ending, after) ∧
      exchanges = [] ∧ final = { evaluator with machine := after } := by
  simp only [Succeeds, executeSlice, Process.done_follows, Prod.mk.injEq] at succeeds
  obtain ⟨rfl, outcome, rfl⟩ := succeeds
  exact ⟨_, Prod.ext outcome.symm rfl, rfl, rfl⟩

theorem of_finishBatch (succeeds : finishBatch.Succeeds evaluator exchanges () final) :
    evaluator.machine.backend.reader.finish = .ok () ∧ exchanges = [] ∧ final = evaluator := by
  obtain ⟨_, _, _, _, rfl, got, checked⟩ := bind_succeeds.mp succeeds
  obtain ⟨rfl, read, same⟩ := get_succeeds.mp got
  rw [read, same] at checked
  obtain ⟨finished, rfl, rfl⟩ := allowed_succeeds.mp checked
  exact ⟨finished, rfl, rfl⟩

theorem of_sendOpenings (succeeds : sendOpenings.Succeeds evaluator exchanges () final) :
    final = evaluator.opened evaluator.machine.processor.log.opening ∧
      exchanges = [.out (Layout.fixed.openings.encode
        evaluator.machine.processor.log.takeOpenings.1)] := by
  obtain ⟨_, _, _, _, rfl, taken, sent⟩ := bind_succeeds.mp succeeds
  obtain ⟨rfl, rfl, rfl⟩ := modifyGet_succeeds.mp taken
  obtain ⟨rfl, rfl⟩ := send_succeeds.mp sent
  exact ⟨rfl, rfl⟩

theorem of_conclude {outputs : Outputs}
    (succeeds : conclude.Succeeds evaluator exchanges outputs final) :
    outputs = { revealed := evaluator.machine.processor.log.opening.revealed
                evaluatorOnly := evaluator.machine.backend.outputs.toList } ∧
      final = evaluator.opened evaluator.machine.processor.log.opening ∧
      exchanges = [.out (Layout.fixed.openings.encode
        evaluator.machine.processor.log.takeOpenings.1)] := by
  obtain ⟨_, _, _, _, rfl, sent, others⟩ := bind_succeeds.mp succeeds
  obtain ⟨rfl, rfl⟩ := of_sendOpenings sent
  obtain ⟨_, _, _, _, rfl, got, named⟩ := bind_succeeds.mp others
  obtain ⟨rfl, rfl, rfl⟩ := get_succeeds.mp got
  obtain ⟨rfl, rfl, rfl⟩ := pure_succeeds.mp named
  exact ⟨rfl, rfl, rfl⟩

end Evaluator

end Garbling
