import Garbling.Network.Session
import Garbling.Wire.Messages

/-!
# The handshake

Each party announces its mode and its time slice, and both must agree on them. A party whose
own settings are not valid announces nothing.
-/

namespace Garbling

/-- Announces the settings of a role made for the given mode, and compares them with those of
the other party. -/
def handshake {σ : Type} (typed : Mode) (settings : Settings) : Session σ Unit := do
  match settings.checkFor typed with
  | .error error => throw (.settings error)
  | .ok () =>
      Session.send .handshake Layout.fixed.handshake (typed, settings.timeSlice)
      let (mode, timeSlice) ← Session.receive .handshake Layout.fixed.handshake
      if mode ≠ typed then
        throw (.settings (.modeMismatch typed mode))
      if timeSlice ≠ settings.timeSlice then
        throw (.settings (.timeSliceMismatch settings.timeSlice timeSlice))

end Garbling
