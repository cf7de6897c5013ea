import Garbling.Network.Interception
import Garbling.Network.Schedule
import Garbling.Network.Session

/-!
# Lines

A line is a connection with somebody who intercepts each of its directions. It outlasts the
sessions that are held over it.
-/

namespace Garbling

/-- A connection and those who intercept its directions. -/
structure Line where
  connection : Connection := {}
  fromGarbler : Interception := {}
  fromEvaluator : Interception := {}

namespace Line

/-- What comes of a session of each party: the outcomes, the states, and the line. -/
structure Conversation (σ α τ β : Type) where
  garbler : Except Error α × σ
  evaluator : Except Error β × τ
  line : Line

/-- Holds a session of each party over the line. There is no result if a session comes to no
end. -/
def converse {σ α τ β : Type} (line : Line) (garbler : Session σ α) (garblerState : σ)
    (evaluator : Session τ β) (evaluatorState : τ) : Option (Conversation σ α τ β) := do
  let (garbler, evaluator, connection) ← Network.runTogether line.connection
    ((garbler garblerState).sendThrough Interception.pass line.fromGarbler)
    ((evaluator evaluatorState).sendThrough Interception.pass line.fromEvaluator)
  return {
    garbler := garbler.1
    evaluator := evaluator.1
    line := { connection, fromGarbler := garbler.2, fromEvaluator := evaluator.2 } }

end Line

/-- The roles of two parties whose messages are intercepted. -/
def Parties.intercepted {σ α τ β : Type} (parties : Parties σ α τ β) :
    Parties (σ × Interception) (α × Interception) (τ × Interception) (β × Interception) where
  garbler := parties.garbler.sendThrough Interception.pass
  evaluator := parties.evaluator.sendThrough Interception.pass
  closing := parties.closing

end Garbling
