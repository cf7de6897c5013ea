import Garbling.Network.Session
import Garbling.Wire.Messages

/-!
# The stream of batches

Every batch is announced by a tag of eight bytes, and so is the end of the stream. The halves
of a batch are messages of their own.
-/

namespace Garbling

/-- What stands before a batch or after the last one. -/
inductive ControlTag where
  /-- Another batch follows. -/
  | more
  /-- No batch follows. -/
  | done
deriving DecidableEq, Repr

namespace ControlTag

/-- The number that stands for a tag. -/
def code : ControlTag → UInt64
  | .more => 0
  | .done => 0xFFFFFFFFFFFFFFFF

/-- The tag with the given number. -/
def ofCode (code : UInt64) : Except Violation ControlTag :=
  if code = more.code then .ok .more
  else if code = done.code then .ok .done
  else .error (.unexpectedTag code)

end ControlTag

namespace BatchStream

variable {σ : Type}

/-- Sends the eight bytes of a number. -/
def sendCode (code : UInt64) : Session σ Unit :=
  Session.sendBytes .controlTag (Bytes.ofNat 8 code.toNat)

/-- Waits for a message of exactly eight bytes and reads it as a number. -/
def receiveCode : Session σ UInt64 := do
  let message ← Session.receiveBytes .controlTag
  if message.length ≠ 8 then
    throw (.message ⟨.controlTag, .wrongLength⟩)
  return UInt64.ofNat (Bytes.toNat message)

/-- Sends a batch. -/
def send (batch : BatchPair) : Session σ Unit := do
  sendCode ControlTag.more.code
  Session.send .gateBatch Layout.fixed.gateBatch batch.gates
  Session.send .maskBatch Layout.fixed.maskBatch batch.masks

/-- Announces that no batch follows. -/
def sendDone : Session σ Unit := sendCode ControlTag.done.code

/-- Waits for the next batch, which is none after the last one. -/
def receive : Session σ (Option BatchPair) := do
  match ← Session.allowed (ControlTag.ofCode (← receiveCode)) with
  | .done => return none
  | .more =>
      let gates ← Session.receive .gateBatch Layout.fixed.gateBatch
      let masks ← Session.receive .maskBatch Layout.fixed.maskBatch
      return some ⟨gates, masks⟩

end BatchStream

end Garbling
