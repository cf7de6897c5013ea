import Garbling.Network.Process
import Garbling.Settings

/-!
# Connections

Two queues of messages, one for each direction. A queue has a bounded number of places. When
a party closes its end, what it has sent can still be received, but nothing more can be sent
to it.
-/

namespace Garbling

/-- The number of messages that a direction holds. -/
def queueCapacity : Nat := 1024

/-- The messages on their way and the ends that are closed. -/
structure Connection where
  /-- Messages from the garbler to the evaluator, the oldest first. -/
  fromGarbler : List Bytes := []
  /-- Messages from the evaluator to the garbler, the oldest first. -/
  fromEvaluator : List Bytes := []
  garblerClosed : Bool := false
  evaluatorClosed : Bool := false
deriving DecidableEq

namespace Connection

/-- The messages that a party has sent and the other one has not received. -/
def sent (connection : Connection) : Role → List Bytes
  | .garbler => connection.fromGarbler
  | .evaluator => connection.fromEvaluator

/-- Replaces the messages that a party has sent. -/
def setSent (connection : Connection) (messages : List Bytes) : Role → Connection
  | .garbler => { connection with fromGarbler := messages }
  | .evaluator => { connection with fromEvaluator := messages }

/-- Whether a party has closed its end. -/
def isClosed (connection : Connection) : Role → Bool
  | .garbler => connection.garblerClosed
  | .evaluator => connection.evaluatorClosed

/-- Closes the end of a party. -/
def close (connection : Connection) : Role → Connection
  | .garbler => { connection with garblerClosed := true }
  | .evaluator => { connection with evaluatorClosed := true }

/-- Has a party send a message to the party with the given number. Nothing comes of it while
the queue is full. -/
def send (connection : Connection) (role : Role) (party : Nat) (message : Bytes) :
    Option (Except SendFailure Unit × Connection) :=
  if party ≠ role.peer.party then some (.error (.unknownParty party), connection)
  else if connection.isClosed role.peer then some (.error .closed, connection)
  else if (connection.sent role).length < queueCapacity then
    some (.ok (), connection.setSent (connection.sent role ++ [message]) role)
  else none

/-- Has a party receive a message from the party with the given number. Nothing comes of it
while the queue is empty and its other end open. -/
def receive (connection : Connection) (role : Role) (party : Nat) :
    Option (Except ReceiveFailure Bytes × Connection) :=
  if party ≠ role.peer.party then some (.error (.unknownParty party), connection)
  else
    match connection.sent role.peer with
    | message :: rest => some (.ok message, connection.setSent rest role.peer)
    | [] => if connection.isClosed role.peer then some (.error .closed, connection) else none

/-- Runs a process of one party on its own, with all messages addressed to the party with the
given number. A message that does not come in time is not waited for; the process stops where
a queue is full. -/
def runAlone {α : Type} (role : Role) (party : Nat) :
    Connection → Process α → Option α × Connection
  | connection, .done value => (some value, connection)
  | connection, .send message next =>
      match connection.send role party message with
      | none => (none, connection)
      | some (outcome, connection) => runAlone role party connection (next outcome)
  | connection, .receive next =>
      match connection.receive role party with
      | none => runAlone role party connection (next (.error .timeoutElapsed))
      | some (outcome, connection) => runAlone role party connection (next outcome)

end Connection

end Garbling
