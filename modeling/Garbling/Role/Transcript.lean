import Garbling.Wire.Messages

/-!
# Transcripts

The messages of a run, told by kind. The kind of a message follows from its place and its
length, since a run has a fixed order of messages.
-/

namespace Garbling

/-- A message of a run. -/
inductive Entry where
  | handshake (message : Bytes)
  | choicePoints (length : Nat)
  | transferPoint (length : Nat)
  | ciphertexts (length : Nat)
  | more
  | done
  | gates (batch : GateBatch)
  | masks (batch : MaskBatch)
  | labels (length : Nat)
  | columns (length : Nat)
  | openings (values : List UInt64)
  /-- A message that is none of the others. -/
  | unknown (length : Nat)
deriving DecidableEq

namespace Transcript

/-- The value that a message holds. -/
def decode? {α : Type} (format : Format α) (message : Bytes) : Option α :=
  match format.decode message with
  | .ok (value, _) => some value
  | .error _ => none

/-- The stream of batches and input labels. -/
def ofStream : List Bytes → List Entry
  | [] => []
  | message :: rest =>
      if message = Bytes.ofNat 8 0 then
        match rest with
        | [] => [.more]
        | [gates] => [.more, ofGates gates]
        | gates :: masks :: rest => .more :: ofGates gates :: ofMasks masks :: ofStream rest
      else if message = List.replicate 8 0xFF then .done :: ofStream rest
      else .labels message.length :: ofStream rest
where
  ofGates (message : Bytes) : Entry :=
    match decode? Layout.fixed.gateBatch message with
    | some batch => .gates batch
    | none => .unknown message.length
  ofMasks (message : Bytes) : Entry :=
    match decode? Layout.fixed.maskBatch message with
    | some batch => .masks batch
    | none => .unknown message.length

/-- The messages of the garbler. -/
def ofGarbler : List Bytes → List Entry
  | [] => []
  | [handshake] => [.handshake handshake]
  | handshake :: points :: rest =>
      .handshake handshake :: .choicePoints points.length :: ofStream rest

/-- A message of the evaluator after the setup. -/
def ofAnswer (message : Bytes) : Entry :=
  if 1160 ≤ message.length ∧ message.take 8 = Bytes.ofNat 8 128 then .columns message.length
  else
    match decode? Layout.fixed.openings message with
    | some values => .openings values
    | none => .unknown message.length

/-- The messages of the evaluator. -/
def ofEvaluator : List Bytes → List Entry
  | [] => []
  | [handshake] => [.handshake handshake]
  | [handshake, point] => [.handshake handshake, .transferPoint point.length]
  | handshake :: point :: ciphertexts :: rest =>
      .handshake handshake :: .transferPoint point.length :: .ciphertexts ciphertexts.length ::
        rest.map ofAnswer

end Transcript

end Garbling
