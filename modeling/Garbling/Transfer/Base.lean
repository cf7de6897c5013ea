import Garbling.Network.Session
import Garbling.Suite.Basic
import Garbling.Wire.Messages

/-!
# Base transfers

The sender holds pairs of words, the receiver one choice bit for each pair. After three
messages the receiver has learned the chosen word of each pair, and the sender nothing. Both
sides derive keys from a group element; the receiver's choice decides which of the two keys of
the sender is its own.
-/

namespace Garbling.BaseTransfer

variable (suite : Suite)

/-- The element with the given bytes; others are refused. -/
def decodePoint {σ : Type} (bytes : Block 32) : Session σ suite.Point :=
  match suite.decode bytes with
  | some point => pure point
  | none => throw (.violation (.invalidTransferMessage .notAPoint))

/-- A random scalar. The generator is the state of the session. -/
def drawScalar : Session suite.Generator suite.Scalar := modifyGet suite.scalar

/-- Encrypts each pair under the two keys that its index and the receiver's point give.
`shared` is the sender's secret multiple of its own point. -/
def encryptAll (secret : suite.Scalar) (shared : suite.Point) :
    (index : Nat) → List (Block 32 × Word × Word) → Session suite.Generator (List (Word × Word))
  | _, [] => return []
  | index, (bytes, first, second) :: rest => do
      let point := suite.mul secret (← decodePoint suite bytes)
      let key₀ := suite.pointKey point index
      let key₁ := suite.pointKey (suite.sub point shared) index
      return (key₀ ^^^ first, key₁ ^^^ second) :: (← encryptAll secret shared (index + 1) rest)

/-- The sender's side. -/
def send (pairs : List (Word × Word)) : Session suite.Generator Unit := do
  let secret ← drawScalar suite
  let point := suite.mulGenerator secret
  Session.send .transferPoint (.block 32) (suite.encode point)
  let shared := suite.mul secret point
  let points ← Session.receiveList .choicePoints Layout.fixed.points pairs.length
  let ciphertexts ← encryptAll suite secret shared 0 (points.zip pairs)
  Session.send .ciphertexts Layout.fixed.ciphertexts ciphertexts

/-- For each choice the point that hides it and the key of the chosen word. `opening` is the
sender's point. -/
def hideAll (opening : suite.Point) :
    (index : Nat) → (choices : List Bool) → Session suite.Generator (List (Block 32 × Word))
  | _, [] => return []
  | index, choice :: rest => do
      let secret ← drawScalar suite
      let multiple := suite.mulGenerator secret
      let point := if choice then suite.add opening multiple else multiple
      let key := suite.pointKey (suite.mul secret opening) index
      return (suite.encode point, key) :: (← hideAll opening (index + 1) rest)

/-- The receiver's side. The result is the chosen word of each pair. -/
def receive (choices : List Bool) : Session suite.Generator (List Word) := do
  let opening ← decodePoint suite (← Session.receive .transferPoint (.block 32))
  let hidden ← hideAll suite opening 0 choices
  Session.send .choicePoints Layout.fixed.points (hidden.map Prod.fst)
  let ciphertexts ← Session.receiveList .ciphertexts Layout.fixed.ciphertexts choices.length
  let keys := hidden.map Prod.snd
  return (choices.zip (keys.zip ciphertexts)).map fun (choice, key, first, second) =>
    key ^^^ if choice then second else first

end Garbling.BaseTransfer
