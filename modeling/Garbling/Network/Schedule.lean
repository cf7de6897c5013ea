import Garbling.Network.Connection

/-!
# Two connected parties

The state of a run is the connection and how far each party has come. A party can take a step
unless it has ended or has to wait for the other one. Any order of steps is a run; one fixed
order, in which a party goes on until it has to wait, is used to carry out a run.

When neither party can go on, time passes until the waiting parties give up, the garbler
first. A party that has given up goes on with that failure.
-/

namespace Garbling

/-- How far a party has come. -/
inductive Activity (state result : Type) where
  | running (process : Process (Next state result))
  | ended (value : result)

namespace Activity

variable {σ α : Type}

/-- The result of a party that has ended. -/
def result? : Activity σ α → Option α
  | .running _ => none
  | .ended value => some value

end Activity

/-- Two parties and their connection. -/
structure Network (σ α τ β : Type) where
  connection : Connection := {}
  garbler : Activity σ α
  evaluator : Activity τ β

/-- The rounds of both parties, and whether a party that ends closes its end. -/
structure Parties (σ α τ β : Type) where
  garbler : Rounds σ α
  evaluator : Rounds τ β
  closing : Bool := true

/-- The step of a running party, if it does not have to wait. -/
def Connection.step {σ α : Type} (connection : Connection) (role : Role) (rounds : Rounds σ α)
    (closing : Bool) : Activity σ α → Option (Connection × Activity σ α)
  | .ended _ => none
  | .running (.done (.again state)) => some (connection, .running (rounds state))
  | .running (.done (.finish value)) =>
      some (if closing then connection.close role else connection, .ended value)
  | .running (.send message next) =>
      (connection.send role role.peer.party message).map fun (outcome, connection) =>
        (connection, .running (next outcome))
  | .running (.receive next) =>
      (connection.receive role role.peer.party).map fun (outcome, connection) =>
        (connection, .running (next outcome))

/-- A party that waits for a message gives up. -/
def Activity.giveUp {σ α : Type} : Activity σ α → Option (Activity σ α)
  | .running (.receive next) => some (.running (next (.error .timeoutElapsed)))
  | _ => none

namespace Network

variable {σ α τ β : Type}

/-- The start of a run from the given states. -/
def start (parties : Parties σ α τ β) (garbler : σ) (evaluator : τ)
    (connection : Connection) : Network σ α τ β :=
  ⟨connection, .running (parties.garbler garbler), .running (parties.evaluator evaluator)⟩

/-- The step of one party, if it can take one. -/
def step (parties : Parties σ α τ β) (network : Network σ α τ β) :
    Role → Option (Network σ α τ β)
  | .garbler =>
      (network.connection.step .garbler parties.garbler parties.closing network.garbler).map
        fun (connection, garbler) => { network with connection, garbler }
  | .evaluator =>
      (network.connection.step .evaluator parties.evaluator parties.closing network.evaluator).map
        fun (connection, evaluator) => { network with connection, evaluator }

/-- One party gives up waiting, if it waits for a message. -/
def giveUp (network : Network σ α τ β) : Role → Option (Network σ α τ β)
  | .garbler => network.garbler.giveUp.map fun garbler => { network with garbler }
  | .evaluator => network.evaluator.giveUp.map fun evaluator => { network with evaluator }

/-- Whether some party waits for a message. -/
def someoneWaits (network : Network σ α τ β) : Bool :=
  (network.giveUp .garbler).isSome || (network.giveUp .evaluator).isSome

/-- Carries out a run until `stop` holds, nobody can go on any more, or `limit` is used up.
It is the turn of `role`; `idle` tells that the other party has to wait already, and `late`
names the parties whose waiting time is over. -/
def carryOut (parties : Parties σ α τ β) (stop : Network σ α τ β → Bool) :
    (limit : Nat) → (role : Role) → (idle : Bool) → (late : List Role) →
      Network σ α τ β → Network σ α τ β
  | 0, _, _, _, network => network
  | limit + 1, role, idle, late, network =>
      if stop network then network
      else
        match network.step parties role with
        | some network => carryOut parties stop limit role false (late.erase role) network
        | none =>
            if late.contains role then
              match network.giveUp role with
              | some network => carryOut parties stop limit role false (late.erase role) network
              | none => carryOut parties stop limit role.peer true (late.erase role) network
            else if !idle then carryOut parties stop limit role.peer true late network
            else if network.someoneWaits then
              carryOut parties stop limit .garbler false [.garbler, .evaluator] network
            else network

/-- More steps than any run that is carried out takes. -/
def stepLimit : Nat := 1 <<< 60

/-- Carries out a run from its start. -/
def run (parties : Parties σ α τ β) (stop : Network σ α τ β → Bool) (network : Network σ α τ β) :
    Network σ α τ β :=
  carryOut parties stop stepLimit .garbler false [] network

/-- The results of both parties, if both have ended. -/
def results? (network : Network σ α τ β) : Option (α × β) := do
  return (← network.garbler.result?, ← network.evaluator.result?)

/-- Carries out a process of each party on a connection that stays open afterwards. There is no
result if a process comes to no end. -/
def runTogether (connection : Connection) (garbler : Process α) (evaluator : Process β) :
    Option (α × β × Connection) :=
  let parties : Parties Unit α Unit β :=
    { garbler := fun () => Next.finish <$> garbler
      evaluator := fun () => Next.finish <$> evaluator
      closing := false }
  let network := run parties (fun _ => false) (start parties () () connection)
  network.results?.map fun (garbler, evaluator) => (garbler, evaluator, network.connection)

end Network

end Garbling
