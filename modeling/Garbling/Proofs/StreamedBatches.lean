import Mathlib
import Garbling.Proofs.Batches
import Garbling.Proofs.Channels

/-!
# The stream of batches over a connection

Batches whose halves are short arrive as they were sent, in whatever order the parties take their
steps, and after the last one the receiver is told that there are no more. A message that is no tag
is refused when it is taken from the connection, and nothing after it is touched.
-/

namespace Garbling

open Session

/-- All messages go from the garbler to the evaluator. -/
theorem Dialogue.allFromGarbler (messages : List Bytes) :
    Dialogue messages (messages.map Exchange.out) (messages.map Exchange.into) := by
  induction messages with
  | nil => exact .nil
  | cons message messages inductionHypothesis =>
      exact (Dialogue.fromGarbler message).append inductionHypothesis

/-- All messages go from the evaluator to the garbler. -/
theorem Dialogue.allFromEvaluator (messages : List Bytes) :
    Dialogue [] (messages.map Exchange.into) (messages.map Exchange.out) := by
  induction messages with
  | nil => exact .nil
  | cons message messages inductionHypothesis =>
      exact (Dialogue.fromEvaluator message).append inductionHypothesis

/-- Each half of a batch fits into a chunk. -/
structure BatchPair.Short (batch : BatchPair) : Prop where
  gates : (Layout.fixed.gateBatch.encode batch.gates).length ≤ chunkSize
  masks : (Layout.fixed.maskBatch.encode batch.masks).length ≤ chunkSize

/-- A list takes at least as many bytes as it has values, if none of them takes no byte. -/
theorem Layout.length_le_list {α : Type} (format : Format α)
    (takes : ∀ value, 1 ≤ (format.encode value).length) (values : List α) :
    values.length ≤ ((Layout.fixed.list format).encode values).length := by
  have each : (values.map fun value => (format.encode value).length).length ≤
      (values.map fun value => (format.encode value).length).sum :=
    List.length_le_sum_of_one_le _ fun length found => by
      obtain ⟨value, _, rfl⟩ := List.mem_map.mp found
      exact takes value
  rw [List.length_map] at each
  simp only [Layout.list, List.length_append, List.length_flatMap]
  omega

/-- What fits into a chunk can be counted by a word. -/
theorem BatchPair.Short.countable {batch : BatchPair} (short : batch.Short) : batch.Countable := by
  have label (value : Label) : 1 ≤ (Layout.fixed.label.encode value).length := by
    have length : (Layout.fixed.label.encode value).length = 16 := Bytes.length_ofNat 16 _
    omega
  have gate (value : Gate) : 1 ≤ (Layout.fixed.gate.encode value).length :=
    (label value.garblerHalf).trans (List.length_append ▸ Nat.le_add_right _ _)
  have gates := Layout.length_le_list _ gate batch.gates.gates
  have inputs := Layout.length_le_list _ label batch.gates.garblerInputs
  have masks := Layout.length_le_list Layout.mask (fun _ => le_rfl) batch.masks.masks
  have first := short.gates
  have second := short.masks
  have bound : chunkSize < UInt64.size := by decide
  simp only [Layout.gateBatch, Layout.maskBatch, Format.map, Format.pair, List.length_append]
    at first second
  exact { gates := by omega, garblerInputs := by omega, masks := by omega }

namespace BatchStream

variable {σ : Type}

/-- Sends some batches and announces that no batch follows. -/
def sendAll : List BatchPair → Session σ Unit
  | [] => sendDone
  | batch :: rest => do
      send batch
      sendAll rest

/-- Waits for the next batch the given number of times. -/
def receiveTimes : Nat → Session σ (List (Option BatchPair))
  | 0 => return []
  | times + 1 => do
      let found ← receive
      return found :: (← receiveTimes times)

/-- The messages of a stream. -/
def stream (batches : List BatchPair) : List Bytes :=
  batches.flatMap messages ++ [tag .done]

theorem length_tag (which : ControlTag) : (tag which).length = 8 := Bytes.length_ofNat 8 _

/-- A stream of short batches has short messages. -/
theorem length_le_of_mem_stream {batches : List BatchPair} (short : ∀ batch ∈ batches, batch.Short)
    {message : Bytes} (found : message ∈ stream batches) : message.length ≤ chunkSize := by
  have tagged (which : ControlTag) : (tag which).length ≤ chunkSize := by
    rw [length_tag, chunkSize]
    omega
  rcases List.mem_append.mp found with within | last
  · obtain ⟨batch, member, part⟩ := List.mem_flatMap.mp within
    simp only [messages, List.mem_cons, List.not_mem_nil, or_false] at part
    rcases part with rfl | rfl | rfl
    · exact tagged .more
    · exact (short batch member).gates
    · exact (short batch member).masks
  · rw [List.mem_singleton.mp last]
    exact tagged .done

/-- The sender sends the messages of the stream. -/
theorem succeeds_sendAll (batches : List BatchPair) (state : σ) :
    (sendAll batches).Succeeds state ((stream batches).map .out) () state := by
  induction batches with
  | nil => exact succeeds_sendCode .done state
  | cons batch batches inductionHypothesis =>
      have one : (send batch).Succeeds state ((messages batch).map .out) () state :=
        (succeeds_sendCode .more state).bind
          ((succeeds_send _ _ _ state).bind (succeeds_send _ _ _ state))
      have both : (sendAll (batch :: batches)).Succeeds state
          ((messages batch).map .out ++ (stream batches).map .out) () state :=
        one.bind inductionHypothesis
      rwa [← List.map_append, stream, ← List.append_assoc] at both

/-- From the messages of the stream the receiver reads the batches and their end. -/
theorem succeeds_receiveTimes {batches : List BatchPair}
    (countable : ∀ batch ∈ batches, batch.Countable) (state : σ) :
    (receiveTimes (batches.length + 1)).Succeeds state ((stream batches).map .into)
      (batches.map some ++ [none]) state := by
  induction batches with
  | nil =>
      have told : (receive : Session σ _).Succeeds state [.into (tag .done)] none state :=
        (succeeds_receiveCode .done state).bind
          ((succeeds_allowed rfl state).bind (succeeds_pure none state))
      exact told.bind (succeeds_pure _ state)
  | cons batch batches inductionHypothesis =>
      have fits := countable batch (.head _)
      have later := inductionHypothesis fun other found => countable other (.tail _ found)
      have gates := Layout.sound_fixed.gateBatch fits.gates fits.garblerInputs
      have masks := Layout.sound_fixed.maskBatch fits.masks
      have one : (receive : Session σ _).Succeeds state ((messages batch).map .into) (some batch)
          state :=
        (succeeds_receiveCode .more state).bind ((succeeds_allowed rfl state).bind
          ((receive_succeeds.mpr ⟨_, [], gates.decode, rfl, rfl⟩).bind
            ((receive_succeeds.mpr ⟨_, [], masks.decode, rfl, rfl⟩).bind (succeeds_pure _ state))))
      have both : (receiveTimes ((batch :: batches).length + 1)).Succeeds state
          ((messages batch).map .into ++ ((stream batches).map .into ++ []))
          ((batch :: batches).map some ++ [none]) state :=
        one.bind (later.bind (succeeds_pure _ state))
      rwa [List.append_nil, ← List.map_append, stream, ← List.append_assoc] at both

variable {message : Bytes}

/-- A number of eight bytes that is neither of the tags is none. -/
theorem ofCode_of_other (length : message.length = 8) (notMore : Bytes.toNat message ≠ 0)
    (notDone : Bytes.toNat message ≠ 2 ^ 64 - 1) :
    ControlTag.ofCode (UInt64.ofNat (Bytes.toNat message)) =
      .error (.unexpectedTag (UInt64.ofNat (Bytes.toNat message))) := by
  have bound := Bytes.toNat_lt message
  rw [length] at bound
  have value : (UInt64.ofNat (Bytes.toNat message)).toNat = Bytes.toNat message :=
    UInt64.toNat_ofNat_of_lt' bound
  have first : UInt64.ofNat (Bytes.toNat message) ≠ ControlTag.more.code := fun same =>
    notMore (value.symm.trans (congrArg UInt64.toNat same))
  have second : UInt64.ofNat (Bytes.toNat message) ≠ ControlTag.done.code := fun same =>
    notDone (value.symm.trans (congrArg UInt64.toNat same))
  rw [ControlTag.ofCode, if_neg first, if_neg second]

/-- A message that is too short or too long for a tag is refused. -/
theorem fails_receive_of_length (wrong : message.length ≠ 8) (state : σ) :
    (receive : Session σ _).Fails state [.into message] (.message ⟨.controlTag, .wrongLength⟩)
      state := by
  have refused : (receiveCode : Session σ UInt64).Fails state [.into message]
      (.message ⟨.controlTag, .wrongLength⟩) state := by
    refine (succeeds_receiveBytes .controlTag message state).fails ?_
    rw [if_pos wrong]
    exact (fails_throw _ state).bind
  exact refused.bind

/-- A message of the length of a tag that is none is refused. -/
theorem fails_receive_of_other (length : message.length = 8) (notMore : Bytes.toNat message ≠ 0)
    (notDone : Bytes.toNat message ≠ 2 ^ 64 - 1) (state : σ) :
    (receive : Session σ _).Fails state [.into message]
      (.violation (.unexpectedTag (UInt64.ofNat (Bytes.toNat message)))) state := by
  have read : (receiveCode : Session σ UInt64).Succeeds state [.into message]
      (UInt64.ofNat (Bytes.toNat message)) state := by
    refine (succeeds_receiveBytes .controlTag message state).bind ?_
    rw [if_neg (not_not.mpr length)]
    exact succeeds_pure _ state
  exact read.fails (fails_allowed (ofCode_of_other length notMore notDone) state).bind

end BatchStream

namespace Connection

variable {α σ : Type} {connection after : Connection} {role : Role} {message : Bytes}

/-- A process that comes to an end with one message takes only this message from the connection. -/
theorem runInChunks_of_follows {process : Process α} {result : α}
    (next : connection.perform role (.receive role.peer.party) =
      some (.received (.ok message), after))
    (follows : process.Follows [.into message] result) :
    connection.runInChunks role role.peer.party process = (some result, after) := by
  cases follows with
  | receive reaches =>
      simp only [perform] at next
      rw [runInChunks]
      split at next
      · next outcome afterwards received =>
          cases next
          simp only [received, Process.Reaches.eq_of_nil reaches, runInChunks]
      · cases next

end Connection

namespace BatchStream

/-- Some batches, and then that there are no more, come from each party to the other one, whatever
the order of steps is. -/
structure Arrives (batches : List BatchPair) (closing : Bool) : Prop where
  toEvaluator :
    let parties := Parties.onceInChunks (sendAll batches ()) (receiveTimes (batches.length + 1) ())
      closing
    (Network.start parties (.round ()) (.round ()) {}).Leads parties (fun _ => True)
      fun network => network.garbler = .ended (.ok (), ()) ∧
        network.evaluator = .ended (.ok (batches.map some ++ [none]), ())
  toGarbler :
    let parties := Parties.onceInChunks (receiveTimes (batches.length + 1) ()) (sendAll batches ())
      closing
    (Network.start parties (.round ()) (.round ()) {}).Leads parties (fun _ => True)
      fun network => network.garbler = .ended (.ok (batches.map some ++ [none]), ()) ∧
        network.evaluator = .ended (.ok (), ())

/-- Short batches arrive, whether a party that is through closes its end or not. -/
theorem arrives_of_short {batches : List BatchPair} (short : ∀ batch ∈ batches, batch.Short)
    (closing : Bool) : Arrives batches closing := by
  have sends := succeeds_sendAll batches ()
  have receives := succeeds_receiveTimes (fun batch found => (short batch found).countable) ()
  have sent : ∀ exchange ∈ (stream batches).map Exchange.out, exchange.Short :=
    List.forall_mem_map.mpr fun _ => length_le_of_mem_stream short
  have answered : ∀ exchange ∈ (stream batches).map Exchange.into, exchange.Short :=
    List.forall_mem_map.mpr fun _ => length_le_of_mem_stream short
  exact {
    toEvaluator := Parties.onceInChunks_leads sends receives
      (.allFromGarbler _) sent answered closing
    toGarbler := Parties.onceInChunks_leads receives sends
      (.allFromEvaluator _) answered sent closing }

/-- After any calls with short messages, each direction delivers what was sent, in order, and then
tells whether the sender has closed its end. A call that names another party than the peer does
nothing. Short batches arrive as they were sent. A message that is no tag is refused when the next
batch is received, and only this message is gone then. -/
theorem survives_the_connection :
    (∀ {past : List Connection.Deed} {connection : Connection},
      Connection.History past connection → (∀ deed ∈ past, deed.call.Short) →
        ∀ sender, ∃ undelivered, connection.Delivers past sender undelivered) ∧
    (∀ (connection : Connection) (role : Role) {party : Nat}, party ≠ role.peer.party →
      (∀ message, connection.perform role (.send party message) =
        some (.sent (.error (.unknownParty party)), connection)) ∧
      connection.perform role (.receive party) =
        some (.received (.error (.unknownParty party)), connection)) ∧
    (∀ {batches : List BatchPair}, (∀ batch ∈ batches, batch.Short) →
      ∀ closing, Arrives batches closing) ∧
    ∀ {connection after : Connection} {role : Role} {message : Bytes},
      connection.perform role (.receive role.peer.party) = some (.received (.ok message), after) →
      (message.length ≠ 8 → connection.runInChunks role role.peer.party (receive ()) =
        (some (.error (.message ⟨.controlTag, .wrongLength⟩), ()), after)) ∧
      (message.length = 8 → Bytes.toNat message ≠ 0 → Bytes.toNat message ≠ 2 ^ 64 - 1 →
        connection.runInChunks role role.peer.party (receive ()) =
          (some (.error (.violation (.unexpectedTag (UInt64.ofNat (Bytes.toNat message)))), ()),
            after)) := by
  refine ⟨fun history short sender => history.delivers short sender,
    fun connection role party unknown => ⟨fun message => ?_, ?_⟩,
    fun short closing => arrives_of_short short closing,
    fun next => ⟨fun wrong => ?_, fun length notMore notDone => ?_⟩⟩
  · exact Connection.perform_send_unknown unknown
  · exact Connection.perform_receive_unknown unknown
  · exact Connection.runInChunks_of_follows next (fails_receive_of_length wrong ())
  · exact Connection.runInChunks_of_follows next
      (fails_receive_of_other length notMore notDone ())

/-- Two messages, one of them empty, of which one is still on its way when the garbler closes its
end; two batches; and a tag that there is not, with a message behind it. -/
theorem survives_the_connection_of_two_messages :
    let past : List Connection.Deed := [
      ⟨.garbler, .send 1 [1, 2, 3], .sent (.ok ())⟩, ⟨.garbler, .send 1 [], .sent (.ok ())⟩,
      ⟨.evaluator, .receive 0, .received (.ok [1, 2, 3])⟩, ⟨.garbler, .close, .closed⟩]
    let connection : Connection := { fromGarbler := [Chunk.whole []], garblerClosed := true }
    let first : BatchPair := ⟨⟨0, 0, [⟨⟨3⟩, ⟨5⟩⟩], [⟨7⟩], 0⟩, ⟨0, [⟨true⟩]⟩⟩
    let second : BatchPair := ⟨⟨1, 1, [], [], 2⟩, ⟨1, []⟩⟩
    let other : Bytes := [42, 0, 0, 0, 0, 0, 0, 0]
    let before : Connection := { fromEvaluator := [Chunk.whole other, Chunk.whole [1]] }
    let after : Connection := { fromEvaluator := [Chunk.whole [1]] }
    (Connection.History past connection ∧ (∀ deed ∈ past, deed.call.Short) ∧
      ∀ sender, ∃ undelivered, connection.Delivers past sender undelivered) ∧
    (0 ≠ Role.garbler.peer.party ∧ connection.perform .garbler (.send 0 [1]) =
      some (.sent (.error (.unknownParty 0)), connection)) ∧
    ((∀ batch ∈ [first, second], batch.Short) ∧ Arrives [first, second] true) ∧
    before.perform .garbler (.receive 1) = some (.received (.ok other), after) ∧
      before.runInChunks .garbler 1 (receive ()) =
        (some (.error (.violation (.unexpectedTag 42)), ()), after) := by
  intro past connection first second other before after
  obtain ⟨delivers, unknown, arrives, refuses⟩ := survives_the_connection
  let one : Connection := { fromGarbler := [Chunk.whole [1, 2, 3]] }
  let two : Connection := { fromGarbler := [Chunk.whole [1, 2, 3], Chunk.whole []] }
  have sent : Connection.perform {} .garbler (.send 1 [1, 2, 3]) = some (.sent (.ok ()), one) :=
    Connection.perform_send (by decide)
  have sentMore : one.perform .garbler (.send 1 []) = some (.sent (.ok ()), two) :=
    Connection.perform_send (by decide)
  have queue : two.sent .garbler = [[1, 2, 3], []].map Chunk.whole := rfl
  have history : Connection.History past connection :=
    (((Connection.History.start.call sent).call sentMore).call
      (@Connection.perform_receive_cons two .evaluator _ _ queue)).call rfl
  have short : ∀ deed ∈ past, deed.call.Short := by
    simp [past, Connection.Call.Short, chunkSize]
  have batches : ∀ batch ∈ [first, second], batch.Short := by
    intro batch found
    rcases List.mem_pair.mp found with rfl | rfl <;> exact ⟨by decide, by decide⟩
  have waiting : before.sent .evaluator = [other, [1]].map Chunk.whole := rfl
  have next : before.perform .garbler (.receive 1) = some (.received (.ok other), after) :=
    @Connection.perform_receive_cons before .garbler _ _ waiting
  exact ⟨⟨history, short, delivers history short⟩,
    ⟨by decide, (unknown connection .garbler (by decide)).1 [1]⟩, ⟨batches, arrives batches true⟩,
    next, (refuses next).2 rfl (by decide) (by decide)⟩

end BatchStream

end Garbling
