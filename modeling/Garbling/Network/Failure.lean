import Garbling.Wire.DecodeError

/-!
# Failed messages

A message can fail on its way out, on its way in, or because its content is not what the
receiver expects. An error names the phase of the protocol in which it happened.
-/

namespace Garbling

/-- Why a message was not sent. -/
inductive SendFailure where
  | unknownParty (party : Nat)
  | closed
deriving DecidableEq, Repr

/-- The wording of a failure. -/
def SendFailure.message : SendFailure → String
  | .unknownParty party => s!"UnknownParty({party})"
  | .closed => "Closed(SendError \x7b .. \x7d)"

/-- Why no message was received. -/
inductive ReceiveFailure where
  | unknownParty (party : Nat)
  | closed
  | timeoutElapsed
  /-- A part of the message does not begin with its index and the number of parts. -/
  | malformedChunk
deriving DecidableEq, Repr

/-- The wording of a failure. -/
def ReceiveFailure.message : ReceiveFailure → String
  | .unknownParty party => s!"UnknownParty({party})"
  | .closed => "Closed"
  | .timeoutElapsed => "TimeoutElapsed"
  | .malformedChunk => "MalformedChunk"

/-- What a message is for. -/
inductive Phase where
  /-- The settings that each party announces. -/
  | handshake
  /-- The point that opens the base transfers. -/
  | transferPoint
  /-- The points that hide the choices of the base transfers. -/
  | choicePoints
  /-- The encrypted pairs that end the base transfers. -/
  | ciphertexts
  /-- The masked columns of one round of transfers. -/
  | columns
  /-- The masked labels of one round of transfers. -/
  | inputLabels
  /-- The tag before a batch or after the last one. -/
  | controlTag
  | gateBatch
  | maskBatch
  /-- The revealed values that the evaluator opens. -/
  | openings
  /-- A message of no particular phase. -/
  | payload
deriving DecidableEq, Repr

/-- The name of a phase. -/
def Phase.name : Phase → String
  | .handshake => "mode handshake"
  | .transferPoint => "CO_OT_s"
  | .choicePoints => "CO_OT_r"
  | .ciphertexts => "CO_OT_c0c1"
  | .columns => "ALSZ_OT_setup"
  | .inputLabels => "evaluator input labels"
  | .controlTag => "control tag"
  | .gateBatch => "gate batch"
  | .maskBatch => "mask batch"
  | .openings => "openings"
  | .payload => "payload"

/-- What went wrong with a message. -/
inductive MessageFault where
  | notReceived (failure : ReceiveFailure)
  | notSent (failure : SendFailure)
  | malformed (error : DecodeError)
  /-- A list or a tag does not have the expected length. -/
  | wrongLength
deriving DecidableEq, Repr

/-- A message that failed in a phase. -/
structure MessageError where
  phase : Phase
  fault : MessageFault
deriving DecidableEq, Repr

/-- The wording of an error. -/
def MessageError.message (error : MessageError) : String :=
  match error.fault with
  | .notReceived failure =>
      s!"could not receive message: {failure.message} (during {error.phase.name})"
  | .notSent failure =>
      s!"could not send message: {failure.message} (during {error.phase.name})"
  | .malformed fault =>
      s!"could not (de-)serialize message: {fault.message} (during receiving {error.phase.name})"
  | .wrongLength => s!"message has an unexpected length (during {error.phase.name})"

end Garbling
