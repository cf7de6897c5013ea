import Mathlib
import Garbling.Proofs.Course
import Garbling.Proofs.Framing

/-!
# Messages arrive in order

The parties make calls at their ends of a connection, in any order. As long as all messages are
short, what is on its way to a party is exactly what the other one has sent and this one has not
received. So the messages arrive in order and unchanged, also after their sender has closed its
end, and only after the last one does the receiver learn of it.
-/

namespace Garbling

namespace Connection

/-- What a party can ask of its end of a connection. -/
inductive Call where
  | send (party : Nat) (message : Bytes)
  | receive (party : Nat)
  | close

/-- What comes of a call. -/
inductive Answer where
  | sent (outcome : Except SendFailure Unit)
  | received (outcome : Except ReceiveFailure Bytes)
  | closed

/-- Whether the message, if there is one, fits into a chunk. -/
def Call.Short : Call → Prop
  | .send _ message => message.length ≤ chunkSize
  | _ => True

/-- What comes of a call that a party makes now. A party that would have to wait for a message
gives up, and there is no answer where it would have to wait for room. -/
def perform (connection : Connection) (role : Role) : Call → Option (Answer × Connection)
  | .send party message =>
      match connection.sendMessage role party message with
      | (some outcome, after) => some (.sent outcome, after)
      | (none, _) => none
  | .receive party =>
      match connection.receiveMessage role party with
      | (some outcome, after) => some (.received outcome, after)
      | (none, after) => some (.received (.error .timeoutElapsed), after)
  | .close => some (.closed, connection.close role)

/-- A call that a party has made, and its answer. -/
structure Deed where
  role : Role
  call : Call
  answer : Answer

namespace Deed

/-- The message that a party has sent by a deed, if it was accepted. -/
def sent? (role : Role) : Deed → Option Bytes
  | ⟨caller, .send _ message, .sent (.ok ())⟩ => if caller = role then some message else none
  | _ => none

/-- The message that a party has received by a deed, if one came. -/
def received? (role : Role) : Deed → Option Bytes
  | ⟨caller, _, .received (.ok message)⟩ => if caller = role then some message else none
  | _ => none

/-- Whether a party has closed its end by a deed. -/
def closes (role : Role) : Deed → Bool
  | ⟨caller, .close, _⟩ => decide (caller = role)
  | _ => false

end Deed

/-- The messages that a party has sent, in order. -/
def sentBy (role : Role) (past : List Deed) : List Bytes := past.filterMap (Deed.sent? role)

/-- The messages that a party has received, in order. -/
def receivedBy (role : Role) (past : List Deed) : List Bytes := past.filterMap (Deed.received? role)

/-- Whether a party has closed its end. -/
def closedBy (role : Role) (past : List Deed) : Bool := past.any (Deed.closes role)

/-- From a new connection on, the parties have made the given calls, one after the other, with these
answers. The connection is what they have come to. -/
inductive History : List Deed → Connection → Prop
  | start : History [] {}
  | call {past : List Deed} {before after : Connection} {role : Role} {call : Call}
      {answer : Answer} (history : History past before)
      (performed : before.perform role call = some (answer, after)) :
      History (past ++ [⟨role, call, answer⟩]) after

variable {connection after : Connection} {role : Role} {party : Nat} {message : Bytes}
  {messages : List Bytes} {answer : Answer} {past : List Deed}

/-! ## One call -/

theorem sent_setSent_eq (other : Role) :
    (connection.setSent messages role).sent other =
      if other = role then messages else connection.sent other := by
  cases role <;> cases other <;> rfl

theorem isClosed_close (other : Role) :
    (connection.close role).isClosed other = (connection.isClosed other || decide (role = other)) := by
  cases role <;> cases other <;> simp [close, isClosed]

theorem setSent_sent : connection.setSent (connection.sent role) role = connection := by
  cases role <;> rfl

/-- A party other than the peer is sent nothing. -/
theorem perform_send_unknown (unknown : party ≠ role.peer.party) :
    connection.perform role (.send party message) =
      some (.sent (.error (.unknownParty party)), connection) := by
  obtain ⟨chunk, chunks, pieces⟩ := List.exists_cons_of_ne_nil (Chunk.ofMessage_ne_nil message)
  have refused (bytes : Bytes) :
      connection.send role party bytes = some (.error (.unknownParty party), connection) :=
    if_pos unknown
  simp only [perform, sendMessage, Process.sendInChunks, pieces, List.map_cons, Process.sendEach,
    runAlone, refused]

/-- Nothing is received from a party other than the peer. -/
theorem perform_receive_unknown (unknown : party ≠ role.peer.party) :
    connection.perform role (.receive party) =
      some (.received (.error (.unknownParty party)), connection) := by
  simp only [perform, receiveMessage, if_pos unknown]

/-- A short message is sent as its chunk. -/
theorem perform_send (short : message.length ≤ chunkSize) :
    connection.perform role (.send role.peer.party message) =
      (connection.send role role.peer.party (Chunk.whole message)).map fun (outcome, after) =>
        (.sent outcome, after) := by
  simp only [perform, sendMessage, Process.sendInChunks_of_short short, runAlone]
  cases connection.send role role.peer.party (Chunk.whole message) <;> rfl

/-- A short message is refused, or it is accepted behind all others. -/
theorem of_perform_send (short : message.length ≤ chunkSize)
    (performed : connection.perform role (.send party message) = some (answer, after)) :
    (∃ failure, answer = .sent (.error failure) ∧ after = connection) ∨
      answer = .sent (.ok ()) ∧
        after = connection.setSent (connection.sent role ++ [Chunk.whole message]) role := by
  by_cases known : party = role.peer.party
  · subst known
    rw [perform_send short] at performed
    obtain ⟨⟨outcome, next⟩, sent, same⟩ := Option.map_eq_some_iff.mp performed
    cases same
    rcases send_eq_some_iff.mp sent with ⟨_, rfl, rfl⟩ | ⟨_, _, rfl, rfl⟩
    · exact .inl ⟨_, rfl, rfl⟩
    · exact .inr ⟨rfl, rfl⟩
  · rw [perform_send_unknown known] at performed
    cases performed
    exact .inl ⟨_, rfl, rfl⟩

/-- The oldest of the short messages on their way is received. -/
theorem perform_receive_cons
    (queue : connection.sent role.peer = (message :: messages).map Chunk.whole) :
    connection.perform role (.receive role.peer.party) =
      some (.received (.ok message), connection.setSent (messages.map Chunk.whole) role.peer) := by
  simp only [perform, receiveMessage, ne_eq, not_true, if_false, queue, List.map_cons,
    Chunk.assemble_whole]

/-- While no message is on its way, none is received. -/
theorem perform_receive_nil (queue : connection.sent role.peer = []) :
    connection.perform role (.receive role.peer.party) =
      some (.received (.error (if connection.isClosed role.peer then .closed else .timeoutElapsed)),
        connection) := by
  have same : connection.setSent [] role.peer = connection := by
    rw [← queue, setSent_sent]
  simp only [perform, receiveMessage, ne_eq, not_true, if_false, queue, Chunk.assemble, same]
  cases connection.isClosed role.peer <;> rfl

/-- As long as only short messages are on their way, nothing is received, or the oldest message
is. -/
theorem of_perform_receive (queue : connection.sent role.peer = messages.map Chunk.whole)
    (performed : connection.perform role (.receive party) = some (answer, after)) :
    (∃ failure, answer = .received (.error failure) ∧ after = connection) ∨
      ∃ message rest, messages = message :: rest ∧ answer = .received (.ok message) ∧
        after = connection.setSent (rest.map Chunk.whole) role.peer := by
  by_cases known : party = role.peer.party
  · subst known
    cases messages with
    | nil =>
        rw [perform_receive_nil queue] at performed
        cases performed
        exact .inl ⟨_, rfl, rfl⟩
    | cons message rest =>
        rw [perform_receive_cons queue] at performed
        cases performed
        exact .inr ⟨message, rest, rfl, rfl, rfl⟩
  · rw [perform_receive_unknown known] at performed
    cases performed
    exact .inl ⟨_, rfl, rfl⟩

/-! ## All calls -/

/-- What is on its way to each party is what the other one has sent and this one has not received,
and an end is closed if its party has closed it. -/
structure Carries (connection : Connection) (past : List Deed) (undelivered : Role → List Bytes) :
    Prop where
  queue : ∀ role, connection.sent role = (undelivered role).map Chunk.whole
  order : ∀ role, sentBy role past = receivedBy role.peer past ++ undelivered role
  closed : ∀ role, connection.isClosed role = closedBy role past

variable {undelivered : Role → List Bytes}

/-- A deed keeps what is on its way, if what was on its way and is sent now is what is received now
and is left on its way. -/
theorem Carries.of_deed (carries : connection.Carries past undelivered) {deed : Deed}
    {left : Role → List Bytes} (queue : ∀ role, after.sent role = (left role).map Chunk.whole)
    (order : ∀ role, undelivered role ++ (deed.sent? role).toList =
      (deed.received? role.peer).toList ++ left role)
    (closed : ∀ role, after.isClosed role = (connection.isClosed role || deed.closes role)) :
    after.Carries (past ++ [deed]) left where
  queue := queue
  order role := by
    have concat (part? : Deed → Option Bytes) :
        (past ++ [deed]).filterMap part? = past.filterMap part? ++ (part? deed).toList := by
      rw [List.filterMap_append]
      cases found : part? deed <;> simp [found]
    calc sentBy role (past ++ [deed])
        = sentBy role past ++ (deed.sent? role).toList := concat _
      _ = receivedBy role.peer past ++ (undelivered role ++ (deed.sent? role).toList) := by
          rw [carries.order, List.append_assoc]
      _ = receivedBy role.peer past ++ (deed.received? role.peer).toList ++ left role := by
          rw [order, List.append_assoc]
      _ = receivedBy role.peer (past ++ [deed]) ++ left role :=
          congrArg (· ++ left role) (concat _).symm
  closed role := by
    rw [closed, carries.closed, closedBy, closedBy, List.any_append, List.any_cons, List.any_nil,
      Bool.or_false]

/-- A call that fails leaves everything as it was. -/
theorem Carries.of_failed (carries : connection.Carries past undelivered) {deed : Deed}
    (sent : ∀ role, deed.sent? role = none) (received : ∀ role, deed.received? role = none)
    (open_ : ∀ role, deed.closes role = false) :
    connection.Carries (past ++ [deed]) undelivered := by
  refine carries.of_deed carries.queue (fun role => ?_) fun role => ?_
  · rw [sent, received, Option.toList_none, List.append_nil, List.nil_append]
  · rw [open_, Bool.or_false]

/-- A queue that holds other short messages now. -/
theorem Carries.queue_update (carries : connection.Carries past undelivered) (left : List Bytes)
    (other : Role) :
    (connection.setSent (left.map Chunk.whole) role).sent other =
      (Function.update undelivered role left other).map Chunk.whole := by
  rw [sent_setSent_eq, Function.update_apply]
  split
  · rfl
  · exact carries.queue other

theorem Carries.of_sent (carries : connection.Carries past undelivered) :
    (connection.setSent (connection.sent role ++ [Chunk.whole message]) role).Carries
      (past ++ [⟨role, .send party message, .sent (.ok ())⟩])
      (Function.update undelivered role (undelivered role ++ [message])) := by
  have queue : connection.sent role ++ [Chunk.whole message] =
      (undelivered role ++ [message]).map Chunk.whole := by
    rw [carries.queue, List.map_append, List.map_singleton]
  rw [queue]
  refine carries.of_deed (carries.queue_update _) (fun other => ?_) fun other => ?_
  · rw [Function.update_apply]
    by_cases own : other = role
    · simp [Deed.sent?, Deed.received?, own]
    · simp [Deed.sent?, Deed.received?, own, Ne.symm own]
  · rw [isClosed_setSent]
    exact (Bool.or_false _).symm

theorem Carries.of_received (carries : connection.Carries past undelivered)
    (next : undelivered role.peer = message :: messages) :
    (connection.setSent (messages.map Chunk.whole) role.peer).Carries
      (past ++ [⟨role, .receive party, .received (.ok message)⟩])
      (Function.update undelivered role.peer messages) := by
  refine carries.of_deed (carries.queue_update _) (fun other => ?_) fun other => ?_
  · rw [Function.update_apply]
    by_cases own : other = role.peer
    · simp [Deed.sent?, Deed.received?, own, next]
    · have elsewhere : role ≠ other.peer := by
        rintro rfl
        exact own peer_peer.symm
      simp [Deed.sent?, Deed.received?, own, elsewhere]
  · rw [isClosed_setSent]
    exact (Bool.or_false _).symm

theorem Carries.of_closed (carries : connection.Carries past undelivered) :
    (connection.close role).Carries (past ++ [⟨role, .close, .closed⟩]) undelivered := by
  refine carries.of_deed (fun other => ?_) (fun other => List.append_nil _) fun other => ?_
  · rw [sent_close, carries.queue]
  · rw [isClosed_close]
    rfl

/-- Every call keeps what is on its way. -/
theorem Carries.perform (carries : connection.Carries past undelivered) {call : Call}
    (short : call.Short) (performed : connection.perform role call = some (answer, after)) :
    ∃ undelivered, after.Carries (past ++ [⟨role, call, answer⟩]) undelivered := by
  cases call with
  | send party message =>
      rcases of_perform_send short performed with ⟨failure, rfl, rfl⟩ | ⟨rfl, rfl⟩
      · exact ⟨_, carries.of_failed (fun _ => rfl) (fun _ => rfl) fun _ => rfl⟩
      · exact ⟨_, carries.of_sent⟩
  | receive party =>
      rcases of_perform_receive (carries.queue role.peer) performed with
        ⟨failure, rfl, rfl⟩ | ⟨message, rest, next, rfl, rfl⟩
      · exact ⟨_, carries.of_failed (fun _ => rfl) (fun _ => rfl) fun _ => rfl⟩
      · exact ⟨_, carries.of_received next⟩
  | close =>
      cases performed
      exact ⟨_, carries.of_closed⟩

/-- After any calls with short messages, what has been sent and not received is on its way. -/
theorem History.carries (history : History past connection)
    (short : ∀ deed ∈ past, deed.call.Short) :
    ∃ undelivered, connection.Carries past undelivered := by
  induction history with
  | start => exact ⟨fun _ => [], fun role => by cases role <;> rfl, fun _ => rfl,
      fun role => by cases role <;> rfl⟩
  | call history performed inductionHypothesis =>
      obtain ⟨undelivered, carries⟩ :=
        inductionHypothesis fun deed earlier => short deed (List.mem_append_left _ earlier)
      exact carries.perform (short _ (List.mem_append_right _ (.head _))) performed

/-- What becomes of the messages of a party. -/
structure Delivers (connection : Connection) (past : List Deed) (sender : Role)
    (undelivered : List Bytes) : Prop where
  /-- A short message is accepted as long as the other end is open and there is room. -/
  accepted : ∀ message : Bytes, message.length ≤ chunkSize → closedBy sender.peer past = false →
    undelivered.length < queueCapacity →
      ∃ after, connection.perform sender (.send sender.peer.party message) =
        some (.sent (.ok ()), after)
  /-- What has been received is the beginning of what was sent. -/
  inOrder : sentBy sender past = receivedBy sender.peer past ++ undelivered
  /-- As long as a message is left, the next one is received, whether the sender has closed its end
  or not. -/
  next : ∀ message rest, undelivered = message :: rest →
    ∃ after, connection.perform sender.peer (.receive sender.party) =
      some (.received (.ok message), after)
  /-- After the last message, the receiver learns whether the sender has closed its end. -/
  last : undelivered = [] → connection.perform sender.peer (.receive sender.party) =
    some (.received (.error (if closedBy sender past then .closed else .timeoutElapsed)), connection)

/-- After any calls with short messages, the messages of each party are delivered. -/
theorem History.delivers (history : History past connection)
    (short : ∀ deed ∈ past, deed.call.Short) (sender : Role) :
    ∃ undelivered, connection.Delivers past sender undelivered := by
  obtain ⟨undelivered, carries⟩ := history.carries short
  have queue : connection.sent sender.peer.peer = (undelivered sender).map Chunk.whole := by
    rw [peer_peer, carries.queue]
  have receives : connection.perform sender.peer (.receive sender.party) =
      connection.perform sender.peer (.receive sender.peer.peer.party) := by
    rw [peer_peer]
  refine ⟨undelivered sender, fun message short open_ room => ?_, carries.order sender,
    fun message rest left => ?_, fun none => ?_⟩
  · rw [← carries.closed] at open_
    rw [← List.length_map Chunk.whole, ← carries.queue] at room
    rw [perform_send short, send_eq_some_iff.mpr (.inr ⟨open_, room, rfl, rfl⟩)]
    exact ⟨_, rfl⟩
  · rw [left] at queue
    exact ⟨_, receives.trans (perform_receive_cons queue)⟩
  · rw [none] at queue
    rw [receives, perform_receive_nil queue, peer_peer, carries.closed]

end Connection

end Garbling
