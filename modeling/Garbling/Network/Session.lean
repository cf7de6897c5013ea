import Garbling.Error
import Garbling.Network.Process
import Garbling.Wire.Format

/-!
# Sessions

A session is what a party does while it talks to the other one: it sends and receives values,
changes its state, and may fail. What it changed before a failure stays changed.
-/

namespace Garbling

/-- A computation of a party with a state of the given type. -/
abbrev Session (state result : Type) := ExceptT Error (StateT state Process) result

namespace Session

variable {α σ τ : Type}

/-- A session on a part of the state. -/
def zoom (view : σ → τ) (update : τ → σ → σ) (session : Session τ α) : Session σ α := fun state => do
  let (outcome, part) ← session (view state)
  return (outcome, update part state)

/-- The result of a computation that the protocol may forbid. -/
def allowed (outcome : Except Violation α) : Session σ α :=
  match outcome with
  | .ok value => pure value
  | .error breach => throw (.violation breach)

/-- Sends a message. -/
def sendBytes (phase : Phase) (message : Bytes) : Session σ Unit := fun state =>
  .send message fun outcome =>
    match outcome with
    | .ok () => .done (.ok (), state)
    | .error failure => .done (.error (.message ⟨phase, .notSent failure⟩), state)

/-- Waits for a message. -/
def receiveBytes (phase : Phase) : Session σ Bytes := fun state =>
  .receive fun outcome =>
    match outcome with
    | .ok message => .done (.ok message, state)
    | .error failure => .done (.error (.message ⟨phase, .notReceived failure⟩), state)

/-- Sends a message; a failure is told, but does not end the session. -/
def trySend (message : Bytes) : Session σ (Option SendFailure) := fun state =>
  .send message fun
    | .ok () => .done (.ok none, state)
    | .error failure => .done (.ok (some failure), state)

/-- Waits for a message; a failure is told, but does not end the session. -/
def tryReceive : Session σ (Except ReceiveFailure Bytes) := fun state =>
  .receive fun outcome => .done (.ok outcome, state)

/-- Sends a value. -/
def send (phase : Phase) (format : Format α) (value : α) : Session σ Unit :=
  sendBytes phase (format.encode value)

/-- Waits for a value. Bytes after it are ignored. -/
def receive (phase : Phase) (format : Format α) : Session σ α := do
  match format.decode (← receiveBytes phase) with
  | .ok (value, _) => return value
  | .error fault => throw (.message ⟨phase, .malformed fault⟩)

/-- Waits for a list of the given length. -/
def receiveList (phase : Phase) (format : Format (List α)) (length : Nat) : Session σ (List α) := do
  let values ← receive phase format
  if values.length ≠ length then
    throw (.message ⟨phase, .wrongLength⟩)
  return values

/-- Carries out some sessions one after the other, whether they fail or not. -/
def playAll : List (Session σ α) → σ → Process (List (Except Error α) × σ)
  | [], state => return ([], state)
  | session :: rest, state => do
      let (outcome, state) ← session state
      let (outcomes, state) ← playAll rest state
      return (outcome :: outcomes, state)

end Session

end Garbling
