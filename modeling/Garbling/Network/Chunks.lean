import Garbling.Network.Schedule

/-!
# Messages in chunks

A connection carries no message longer than a chunk in one piece. A longer one is cut, and each
piece travels behind its index and the number of pieces; a short message is a single piece. The
receiver joins the payloads until it has seen the last piece. A party need not know of this: the
same process can be carried out on a connection of chunks.
-/

namespace Garbling

/-- The number of bytes that a chunk can carry. -/
def chunkSize : Nat := 100 * 1024 * 1024

/-- A piece of a message. -/
structure Chunk where
  /-- The number of pieces before this one. -/
  index : UInt32
  /-- The number of pieces of the message. -/
  count : UInt32
  payload : Bytes
deriving DecidableEq

/-- What the receiver of a message has after some of its chunks. -/
inductive Assembly where
  | malformed
  /-- The payloads so far; more chunks follow. -/
  | unfinished (received : Bytes)
  | finished (message : Bytes)
deriving DecidableEq

namespace Chunk

/-- The bytes of a chunk on the connection. -/
def encode (chunk : Chunk) : Bytes :=
  Bytes.ofNat 4 chunk.index.toNat ++ Bytes.ofNat 4 chunk.count.toNat ++ chunk.payload

/-- Reads a chunk, if the bytes are long enough to be one. -/
def decode? (bytes : Bytes) : Option Chunk :=
  if bytes.length < 8 then none
  else
    some {
      index := UInt32.ofNat (Bytes.toNat (bytes.take 4))
      count := UInt32.ofNat (Bytes.toNat ((bytes.drop 4).take 4))
      payload := bytes.drop 8 }

/-- Whether no further chunk of the message follows. The sum is taken in the 32 bits of the index. -/
def isLast (chunk : Chunk) : Bool :=
  decide (chunk.count ≤ chunk.index + 1)

/-- The chunks of a message. The empty message has one as well. -/
def ofMessage : Bytes → List Chunk
  | [] => [⟨0, 1, []⟩]
  | message@(_ :: _) =>
      let count := (message.length + (chunkSize - 1)) / chunkSize
      (List.range count).map fun index => {
        index := UInt32.ofNat index
        count := UInt32.ofNat count
        payload := (message.drop (index * chunkSize)).take chunkSize }

/-- What becomes of the payloads so far when the bytes of another chunk come in. -/
def absorb (received bytes : Bytes) : Assembly :=
  match decode? bytes with
  | none => .malformed
  | some chunk =>
      if chunk.isLast then .finished (received ++ chunk.payload)
      else .unfinished (received ++ chunk.payload)

/-- Takes the chunks of a message from the front of a queue. The message is none as long as its
last chunk is missing; the chunks that are there are taken all the same. -/
def assemble (received : Bytes) : List Bytes → Option (Except ReceiveFailure Bytes) × List Bytes
  | [] => (none, [])
  | bytes :: rest =>
      match absorb received bytes with
      | .malformed => (some (.error .malformedChunk), rest)
      | .finished message => (some (.ok message), rest)
      | .unfinished received => assemble received rest

end Chunk

namespace Process

variable {α σ : Type}

/-- Sends some messages one after the other, up to the first one that is not sent. -/
def sendEach : List Bytes → Process (Except SendFailure Unit)
  | [] => .done (.ok ())
  | message :: rest => .send message fun
      | .ok () => sendEach rest
      | .error failure => .done (.error failure)

/-- Sends a message as its chunks. -/
def sendInChunks (message : Bytes) : Process (Except SendFailure Unit) :=
  sendEach ((Chunk.ofMessage message).map Chunk.encode)

/-- Waits for the next chunk of a message. Goes on with the message if it is finished or has
failed, and with the payloads so far if more chunks follow. -/
def receiveChunk (received : Bytes) (more : Bytes → Process α)
    (next : Except ReceiveFailure Bytes → Process α) : Process α :=
  .receive fun
    | .error failure => next (.error failure)
    | .ok bytes =>
        match Chunk.absorb received bytes with
        | .malformed => next (.error .malformedChunk)
        | .unfinished received => more received
        | .finished message => next (.ok message)

end Process

/-! ## Calls at an end of a connection -/

namespace Connection

/-- Has a party send a message in chunks to the party with the given number. Nothing comes of it
when the queue is full before the last chunk. -/
def sendMessage (connection : Connection) (role : Role) (party : Nat) (message : Bytes) :
    Option (Except SendFailure Unit) × Connection :=
  connection.runAlone role party (Process.sendInChunks message)

/-- Has a party receive a message in chunks from the party with the given number. Nothing comes of
it when the queue is used up before the last chunk and its other end is open. -/
def receiveMessage (connection : Connection) (role : Role) (party : Nat) :
    Option (Except ReceiveFailure Bytes) × Connection :=
  if party ≠ role.peer.party then (some (.error (.unknownParty party)), connection)
  else
    match Chunk.assemble [] (connection.sent role.peer) with
    | (some outcome, rest) => (some outcome, connection.setSent rest role.peer)
    | (none, rest) =>
        (if connection.isClosed role.peer then some (.error .closed) else none,
          connection.setSent rest role.peer)

/-- Runs a process of one party on its own as `runAlone` does, with its messages in chunks. -/
def runInChunks {α : Type} (role : Role) (party : Nat) :
    Connection → Process α → Option α × Connection
  | connection, .done value => (some value, connection)
  | connection, .send message next =>
      match connection.sendMessage role party message with
      | (none, connection) => (none, connection)
      | (some outcome, connection) => runInChunks role party connection (next outcome)
  | connection, .receive next =>
      match connection.receiveMessage role party with
      | (none, connection) => runInChunks role party connection (next (.error .timeoutElapsed))
      | (some outcome, connection) => runInChunks role party connection (next outcome)

end Connection

/-! ## Parties whose messages are in chunks -/

/-- The state of a party between two rounds: one of its own rounds is next, or it is in the middle
of a message. -/
inductive Assembling (state result : Type) where
  | round (state : state)
  | within (received : Bytes) (next : Except ReceiveFailure Bytes → Process (Next state result))

variable {σ α τ β : Type}

/-- The round with its messages in chunks. Where a message that is received has more than one
chunk, the rest of it is received in rounds of its own. -/
def Process.inChunks : Process (Next σ α) → Process (Next (Assembling σ α) α)
  | .done (.again state) => .done (.again (.round state))
  | .done (.finish value) => .done (.finish value)
  | .send message next => sendInChunks message >>= fun outcome => (next outcome).inChunks
  | .receive next =>
      receiveChunk [] (fun received => .done (.again (.within received next)))
        fun outcome => (next outcome).inChunks

/-- The rounds of a party whose messages are in chunks. -/
def Rounds.inChunks (rounds : Rounds σ α) : Rounds (Assembling σ α) α
  | .round state => (rounds state).inChunks
  | .within received next =>
      Process.receiveChunk received (fun received => .done (.again (.within received next)))
        fun outcome => (next outcome).inChunks

/-- Two parties whose messages are in chunks. -/
def Parties.inChunks (parties : Parties σ α τ β) :
    Parties (Assembling σ α) α (Assembling τ β) β where
  garbler := parties.garbler.inChunks
  evaluator := parties.evaluator.inChunks
  closing := parties.closing

end Garbling
