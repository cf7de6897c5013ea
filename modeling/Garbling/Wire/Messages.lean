import Garbling.Batch.Basic
import Garbling.Settings
import Garbling.Wire.Format

/-!
# The formats of messages

Every message of a run, in either layout of numbers. The fields of a structure follow one
another in order.
-/

namespace Garbling.Layout

variable (layout : Layout)

/-- The format of labels. -/
def label : Format Label := layout.word128.map Label.mk Label.bits

/-- The format of garbled gates. -/
def gate : Format Gate :=
  (layout.label.pair layout.label).map (fun (garblerHalf, evaluatorHalf) => ⟨garblerHalf, evaluatorHalf⟩)
    fun gate => (gate.garblerHalf, gate.evaluatorHalf)

/-- The format of masks. -/
def mask : Format Mask := Format.bool.map Mask.mk Mask.color

/-- The format of the gates of a batch. -/
def gateBatch : Format GateBatch :=
  (layout.word64.pair <| layout.word64.pair <| (layout.list layout.gate).pair <|
    (layout.list layout.label).pair layout.word64).map
    (fun (number, firstGate, gates, garblerInputs, evaluatorInputs) =>
      ⟨number, firstGate, gates, garblerInputs, evaluatorInputs⟩)
    fun batch =>
      (batch.number, batch.firstGate, batch.gates, batch.garblerInputs, batch.evaluatorInputs)

/-- The format of the masks of a batch. -/
def maskBatch : Format MaskBatch :=
  (layout.word64.pair (layout.list mask)).map (fun (number, masks) => ⟨number, masks⟩)
    fun batch => (batch.number, batch.masks)

/-- The format of a list of labels. -/
def labels : Format (List Label) := layout.list layout.label

/-- The format of a list of opened values. -/
def openings : Format (List UInt64) := layout.list layout.word64

/-- The format of a list of bit columns. -/
def columns : Format (List Bytes) := layout.list (layout.list .byte)

/-- The format of a list of encoded points. -/
def points : Format (List (Block 32)) := layout.list (.block 32)

/-- The format of a list of encrypted pairs. -/
def ciphertexts : Format (List (Word × Word)) :=
  layout.list (layout.word128.pair layout.word128)

/-- The format of a mode. -/
def mode : Format Mode where
  encode
    | .continuous => layout.word32.encode 0
    | .buffered => layout.word32.encode 1
  decode := do
    match ← layout.variant 2 with
    | 0 => return .continuous
    | 1 => return .buffered

/-- The format of the settings that a party announces: its mode and its time slice. -/
def handshake : Format (Mode × UInt64) := layout.mode.pair layout.word64

/-- The format of all settings. -/
def settings : Format Settings :=
  (layout.mode.pair <| layout.word64.pair <| .optional layout.text).map
    (fun (mode, timeSlice, storeDirectory) => ⟨mode, timeSlice, storeDirectory⟩)
    fun settings => (settings.mode, settings.timeSlice, settings.storeDirectory)

end Garbling.Layout
