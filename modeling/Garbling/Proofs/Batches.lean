import Mathlib
import Garbling.Batch.Stream
import Garbling.Proofs.Together
import Garbling.Role.Transcript

/-!
# Batches on their way

The evaluator receives the batches that the garbler sends, and learns where they end. Read as a
transcript, the messages of the garbler tell the same batches, whatever labels are sent between
them.
-/

namespace Garbling

open Session

variable {σ τ : Type}

/-- What the evaluator finds in a batch: all of it, as long as the masks can be counted by a
word. -/
def BatchPair.onArrival (batch : BatchPair) : BatchPair where
  gates := batch.gates
  masks :=
    { number := batch.masks.number
      masks := batch.masks.masks.take (batch.masks.masks.length % UInt64.size) }

theorem BatchPair.onArrival_eq {batch : BatchPair}
    (short : batch.masks.masks.length < UInt64.size) : batch.onArrival = batch := by
  rw [onArrival, Nat.mod_eq_of_lt short, List.take_length]

namespace BatchStream

/-- The message of a tag. -/
def tag (tag : ControlTag) : Bytes := Bytes.ofNat 8 tag.code.toNat

/-- The messages of a batch. -/
def messages (batch : BatchPair) : List Bytes :=
  [tag .more, Layout.fixed.gateBatch.encode batch.gates,
    Layout.fixed.maskBatch.encode batch.masks]

theorem succeeds_sendCode (which : ControlTag) (state : σ) :
    (sendCode which.code).Succeeds state [.out (tag which)] () state :=
  sendBytes_succeeds.mpr ⟨rfl, rfl⟩

theorem succeeds_receiveCode (which : ControlTag) (state : σ) :
    (receiveCode : Session σ UInt64).Succeeds state [.into (tag which)] which.code state := by
  refine (succeeds_receiveBytes .controlTag (tag which) state).bind ?_
  cases which <;> exact succeeds_pure _ _

theorem agree_tag (tag : ControlTag) (garbler : σ) (evaluator : τ) :
    Agree (sendCode tag.code) receiveCode garbler evaluator [BatchStream.tag tag] ((), garbler)
      (tag.code, evaluator) :=
  agree_of_succeeds (succeeds_sendCode tag garbler) (succeeds_receiveCode tag evaluator)
    (.fromGarbler _)

/-- The evaluator receives the batch that the garbler sends. -/
theorem agree_batch {batch : BatchPair} (writable : batch.Writable) (garbler : σ) (evaluator : τ) :
    Agree (send batch) receive garbler evaluator (messages batch) ((), garbler)
      (some batch.onArrival, evaluator) := by
  obtain ⟨rest, masks⟩ := Layout.sound_fixed.maskBatch_beginning batch.masks
  have gates := Layout.sound_fixed.gateBatch writable.gates writable.garblerInputs
  have last : Agree (Session.send .maskBatch Layout.fixed.maskBatch batch.masks)
      (Session.receive .maskBatch Layout.fixed.maskBatch) garbler evaluator
      [Layout.fixed.maskBatch.encode batch.masks] ((), garbler)
      (batch.onArrival.masks, evaluator) :=
    agree_of_succeeds (succeeds_send _ _ _ _) (receive_succeeds.mpr ⟨_, rest, masks, rfl, rfl⟩)
      (.fromGarbler _)
  apply Agree.bind (agree_tag .more garbler evaluator)
  apply Agree.bind_evaluator (succeeds_allowed rfl evaluator)
  apply Agree.bind (agree_send_receive gates)
  apply Agree.evaluator_then last
  exact succeeds_pure _ _

/-- The evaluator learns that there are no more batches. -/
theorem agree_done (garbler : σ) (evaluator : τ) :
    Agree sendDone receive garbler evaluator [tag .done] ((), garbler) (none, evaluator) := by
  apply Agree.evaluator_then (agree_tag .done garbler evaluator)
  apply Succeeds.bind (succeeds_allowed rfl evaluator)
  exact succeeds_pure _ _

section

variable {state final : σ} {exchanges : List Exchange} {batch : BatchPair}

/-- A number that was received is the message that was received. -/
theorem exchanges_of_receiveCode {code : UInt64}
    (succeeds : (receiveCode : Session σ UInt64).Succeeds state exchanges code final) :
    exchanges = [.into (Bytes.ofNat 8 code.toNat)] ∧ final = state := by
  obtain ⟨_, _, message, _, rfl, received, read⟩ := bind_succeeds.mp succeeds
  obtain ⟨rfl, rfl⟩ := receiveBytes_succeeds.mp received
  by_cases length : message.length = 8
  · simp only [length, ne_eq, not_true, if_false] at read
    obtain ⟨rfl, rfl, rfl⟩ := pure_succeeds.mp read
    have small : Bytes.toNat message < UInt64.size := by
      have bound := Bytes.toNat_lt message
      rwa [length] at bound
    have word : Bytes.ofNat 8 (Bytes.toNat message) = message := by
      rw [← length, Bytes.ofNat_toNat]
    rw [UInt64.toNat_ofNat_of_lt' small, word]
    exact ⟨rfl, rfl⟩
  · simp only [ne_eq, length, not_false_eq_true, if_true] at read
    obtain ⟨_, _, _, _, _, thrown, _⟩ := bind_succeeds.mp read
    exact (throw_succeeds.mp thrown).elim

/-- A tag is read from its number. -/
theorem ofCode_eq_ok {code : UInt64} {tag : ControlTag} (known : ControlTag.ofCode code = .ok tag) :
    code = tag.code := by
  unfold ControlTag.ofCode at known
  split at known
  · cases known
    assumption
  · split at known
    · cases known
      assumption
    · cases known

/-- What was exchanged when the batches had come to their end. -/
theorem exchanges_of_receive_none
    (succeeds : (receive : Session σ _).Succeeds state exchanges none final) :
    exchanges = [.into (tag .done)] ∧ final = state := by
  obtain ⟨_, _, code, _, rfl, coded, told⟩ := bind_succeeds.mp succeeds
  obtain ⟨rfl, rfl⟩ := exchanges_of_receiveCode coded
  obtain ⟨_, _, found, _, rfl, checked, read⟩ := bind_succeeds.mp told
  obtain ⟨known, rfl, rfl⟩ := allowed_succeeds.mp checked
  rw [ofCode_eq_ok known]
  cases found with
  | more =>
      obtain ⟨_, _, _, _, _, _, others⟩ := bind_succeeds.mp read
      obtain ⟨_, _, _, _, _, _, last⟩ := bind_succeeds.mp others
      cases (pure_succeeds.mp last).2.1
  | done =>
      obtain ⟨rfl, _, rfl⟩ := pure_succeeds.mp read
      exact ⟨rfl, rfl⟩

/-- What was exchanged when a batch was received. -/
theorem exchanges_of_receive_some
    (succeeds : (receive : Session σ _).Succeeds state exchanges (some batch) final) :
    ∃ gates gatesRest masks masksRest, exchanges = [.into (tag .more), .into gates, .into masks] ∧
      Layout.fixed.gateBatch.decode gates = .ok (batch.gates, gatesRest) ∧
      Layout.fixed.maskBatch.decode masks = .ok (batch.masks, masksRest) ∧ final = state := by
  obtain ⟨_, _, code, _, rfl, coded, told⟩ := bind_succeeds.mp succeeds
  obtain ⟨rfl, rfl⟩ := exchanges_of_receiveCode coded
  obtain ⟨_, _, found, _, rfl, checked, read⟩ := bind_succeeds.mp told
  obtain ⟨known, rfl, rfl⟩ := allowed_succeeds.mp checked
  rw [ofCode_eq_ok known]
  cases found with
  | done => cases (pure_succeeds.mp read).2.1
  | more =>
      obtain ⟨_, _, gates, _, rfl, gatesReceived, others⟩ := bind_succeeds.mp read
      obtain ⟨_, _, masks, _, rfl, masksReceived, last⟩ := bind_succeeds.mp others
      obtain ⟨gatesMessage, gatesRest, gatesDecoded, rfl, rfl⟩ := receive_succeeds.mp gatesReceived
      obtain ⟨masksMessage, masksRest, masksDecoded, rfl, rfl⟩ := receive_succeeds.mp masksReceived
      obtain ⟨rfl, found, rfl⟩ := pure_succeeds.mp last
      cases found
      exact ⟨_, _, _, _, rfl, gatesDecoded, masksDecoded, rfl⟩

end

end BatchStream

/-- A message with labels is longer than a tag. -/
theorem Layout.length_labels_gt {labels : List Label} (some : labels ≠ []) :
    8 < (Layout.fixed.labels.encode labels).length := by
  obtain ⟨label, rest, rfl⟩ := List.exists_cons_of_ne_nil some
  have word (value : UInt64) : (Layout.fixed.word64.encode value).length = 8 :=
    Bytes.length_ofNat 8 _
  have head : (Layout.fixed.label.encode label).length = 16 := Bytes.length_ofNat 16 _
  simp only [Layout.labels, Layout.list, List.length_append, word, List.flatMap_cons, head]
  omega

/-- Whether an entry is a tag or half of a batch. -/
def Entry.inStream : Entry → Bool
  | .more | .done | .gates _ | .masks _ => true
  | _ => false

/-- What a batch looks like in a transcript. -/
def BatchPair.entries (batch : BatchPair) : List Entry :=
  [.more, .gates batch.gates, .masks batch.masks]

namespace Transcript

/-- Whatever follows them, the messages tell the given tags and batches. -/
def Carries (messages : List Bytes) (entries : List Entry) : Prop :=
  ∀ rest, (ofStream (messages ++ rest)).filter Entry.inStream =
    entries ++ (ofStream rest).filter Entry.inStream

variable {messages more : List Bytes} {entries others : List Entry}

theorem Carries.nil : Carries [] [] := fun _ => rfl

theorem Carries.append (one : Carries messages entries) (two : Carries more others) :
    Carries (messages ++ more) (entries ++ others) := by
  intro rest
  rw [List.append_assoc, one, two, List.append_assoc]

/-- Messages that carry something and are not followed by others tell just that. -/
theorem Carries.ofStream (carries : Carries messages entries) :
    (ofStream messages).filter Entry.inStream = entries := by
  have alone := carries []
  rwa [List.append_nil, Transcript.ofStream, List.filter_nil, List.append_nil] at alone

/-- The messages from which a batch was read tell this batch. -/
theorem carries_read {batch : BatchPair} {gates gatesRest masks masksRest : Bytes}
    (gatesRead : Layout.fixed.gateBatch.decode gates = .ok (batch.gates, gatesRest))
    (masksRead : Layout.fixed.maskBatch.decode masks = .ok (batch.masks, masksRest)) :
    Carries [BatchStream.tag .more, gates, masks] batch.entries := by
  intro rest
  have first : decode? Layout.fixed.gateBatch gates = some batch.gates := by
    rw [decode?, gatesRead]
  have second : decode? Layout.fixed.maskBatch masks = some batch.masks := by
    rw [decode?, masksRead]
  have tag : BatchStream.tag .more = Bytes.ofNat 8 0 := rfl
  simp only [tag, List.cons_append, List.nil_append, ofStream, if_true, ofStream.ofGates,
    ofStream.ofMasks, first, second]
  rfl

/-- A batch tells what the evaluator finds in it. -/
theorem carries_arrived {batch : BatchPair} (writable : batch.Writable) :
    Carries (BatchStream.messages batch) batch.onArrival.entries := by
  have gates := Layout.sound_fixed.gateBatch writable.gates writable.garblerInputs []
  rw [List.append_nil] at gates
  obtain ⟨rest, masks⟩ := Layout.sound_fixed.maskBatch_beginning batch.masks
  exact @carries_read batch.onArrival _ _ _ _ gates masks

/-- A batch tells itself. -/
theorem carries_batch {batch : BatchPair} (countable : batch.Countable) :
    Carries (BatchStream.messages batch) batch.entries := by
  have arrived := carries_arrived countable.toWritable
  rwa [BatchPair.onArrival_eq countable.masks] at arrived

/-- The end of the stream tells itself. -/
theorem carries_done : Carries [BatchStream.tag .done] [.done] := by
  intro rest
  have other : BatchStream.tag .done ≠ Bytes.ofNat 8 0 := by decide
  have tag : BatchStream.tag .done = List.replicate 8 0xFF := by decide
  rw [List.singleton_append, ofStream.eq_def]
  simp only [if_neg other, if_pos tag]
  rfl

/-- A message that is longer than a tag tells neither a tag nor a batch. -/
theorem carries_other {message : Bytes} (length : 8 < message.length) : Carries [message] [] := by
  intro rest
  have first : message ≠ Bytes.ofNat 8 0 := by
    rintro rfl
    exact lt_irrefl 8 length
  have second : message ≠ List.replicate 8 0xFF := by
    rintro rfl
    exact lt_irrefl 8 length
  rw [List.singleton_append, ofStream.eq_def]
  simp only [if_neg first, if_neg second]
  rfl

/-- A message with labels tells neither a tag nor a batch. -/
theorem carries_labels {labels : List Label} (some : labels ≠ []) :
    Carries [Layout.fixed.labels.encode labels] [] :=
  carries_other (Layout.length_labels_gt some)

end Transcript

end Garbling
