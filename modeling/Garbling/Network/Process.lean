import Garbling.Network.Failure

/-!
# Processes

What one party does, seen from the connection: it sends messages, waits for messages, and
comes to a result. A process is finite. A party whose behaviour has no bound runs in rounds,
each of which is a process that ends with a result or with the state of the next round.
-/

namespace Garbling

/-- The actions of a party until it comes to a result. -/
inductive Process (result : Type) where
  | done (value : result)
  | send (message : Bytes) (next : Except SendFailure Unit → Process result)
  | receive (next : Except ReceiveFailure Bytes → Process result)

namespace Process

variable {α β σ : Type}

/-- One process after the other. -/
def bind : Process α → (α → Process β) → Process β
  | .done value, next => next value
  | .send message rest, next => .send message fun outcome => (rest outcome).bind next
  | .receive rest, next => .receive fun outcome => (rest outcome).bind next

instance : Monad Process where
  pure := .done
  bind := bind

@[simp] theorem pure_eq_done (value : α) : (pure value : Process α) = .done value := rfl

@[simp] theorem done_bind (value : α) (next : α → Process β) :
    (Process.done value >>= next) = next value := rfl

@[simp] theorem send_bind (message : Bytes) (rest : Except SendFailure Unit → Process α)
    (next : α → Process β) :
    (Process.send message rest >>= next) = .send message fun outcome => rest outcome >>= next :=
  rfl

@[simp] theorem receive_bind (rest : Except ReceiveFailure Bytes → Process α)
    (next : α → Process β) :
    (Process.receive rest >>= next) = .receive fun outcome => rest outcome >>= next :=
  rfl

/-- A process that goes on with its own result is the process itself. -/
theorem bind_done (process : Process α) : (process >>= Process.done) = process := by
  induction process with
  | done value => rfl
  | send message rest inductionHypothesis =>
      rw [send_bind]
      exact congrArg (Process.send message) (funext inductionHypothesis)
  | receive rest inductionHypothesis =>
      rw [receive_bind]
      exact congrArg Process.receive (funext inductionHypothesis)

/-- How processes are grouped makes no difference. -/
theorem bind_assoc {γ : Type} (process : Process α) (next : α → Process β) (last : β → Process γ) :
    (process >>= next >>= last) = (process >>= fun value => next value >>= last) := by
  induction process with
  | done value => rfl
  | send message rest inductionHypothesis =>
      rw [send_bind, send_bind, send_bind]
      exact congrArg (Process.send message) (funext inductionHypothesis)
  | receive rest inductionHypothesis =>
      rw [receive_bind, receive_bind, receive_bind]
      exact congrArg Process.receive (funext inductionHypothesis)

instance : LawfulMonad Process :=
  LawfulMonad.mk' (m := Process) bind_done (fun _ _ => rfl) bind_assoc

/-- Has every message sent by `sendAs` instead, which keeps a state of its own. -/
def sendThrough (sendAs : Bytes → StateT σ Process (Except SendFailure Unit)) :
    Process α → StateT σ Process α
  | .done value => pure value
  | .send message next => do
      let outcome ← sendAs message
      sendThrough sendAs (next outcome)
  | .receive next => fun state => .receive fun outcome => sendThrough sendAs (next outcome) state

end Process

/-- How a round ends. -/
inductive Next (state result : Type) where
  | again (state : state)
  | finish (value : result)

/-- The rounds of a party whose behaviour has no bound. -/
abbrev Rounds (state result : Type) := state → Process (Next state result)

/-- Has every message of all rounds sent by `sendAs` instead. The state of `sendAs` goes from
round to round and into the result. -/
def Rounds.sendThrough {state result σ : Type}
    (sendAs : Bytes → StateT σ Process (Except SendFailure Unit))
    (rounds : Rounds state result) : Rounds (state × σ) (result × σ) := fun (state, own) => do
  match ← (rounds state).sendThrough sendAs own with
  | (.again state, own) => return .again (state, own)
  | (.finish value, own) => return .finish (value, own)

end Garbling
