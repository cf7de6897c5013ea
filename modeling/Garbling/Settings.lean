/-!
# Settings of a run

Both parties fix how the evaluator consumes batches and how many instructions a slice has.
The two must be the same on both sides; where the evaluator stores batches is its own affair.
-/

namespace Garbling

/-- How the evaluator consumes the batches of the garbler. -/
inductive Mode where
  /-- Each batch is evaluated when it arrives, so programs may branch on revealed values. -/
  | continuous
  /-- All batches are stored first and replayed afterwards. -/
  | buffered
deriving DecidableEq, Repr

namespace Mode

/-- The name of a mode. -/
def name : Mode → String
  | .continuous => "continuous"
  | .buffered => "buffered"

/-- The mode with the given name. -/
def ofName? (name : String) : Option Mode :=
  [continuous, buffered].find? (·.name == name)

end Mode

/-- The two roles of a run. -/
inductive Role where
  | garbler
  | evaluator
deriving DecidableEq, Repr

namespace Role

/-- The name of a role. -/
def name : Role → String
  | .garbler => "garbler"
  | .evaluator => "evaluator"

/-- The number by which the other party addresses this one. -/
def party : Role → Nat
  | .garbler => 0
  | .evaluator => 1

/-- The other role. -/
def peer : Role → Role
  | .garbler => .evaluator
  | .evaluator => .garbler

end Role

/-- What a party has been told about a run. -/
structure Settings where
  mode : Mode := .continuous
  /-- The number of instructions in a slice; every slice gives one batch. -/
  timeSlice : UInt64 := 65536
  /-- The directory for stored batches; without one they are kept in memory. -/
  storeDirectory : Option String := none
deriving DecidableEq, Repr

/-- Why a run cannot be carried out as it has been set up. -/
inductive SettingsError where
  | restartInBufferedMode (role : Role)
  | modeMismatch (mine peer : Mode)
  | timeSliceMismatch (mine peer : UInt64)
  | roleModeConflict (typed configured : Mode)
  | zeroTimeSlice
deriving DecidableEq, Repr

/-- The wording of an error. -/
def SettingsError.message : SettingsError → String
  | .restartInBufferedMode role =>
      s!"the {role.name} hit an instruction that depends on a revealed value in buffered mode; " ++
        "programs that branch on revealed values must run in continuous mode"
  | .modeMismatch mine peer =>
      s!"local mode {mine.name} does not match the peer's mode {peer.name}"
  | .timeSliceMismatch mine peer =>
      s!"local time slice {mine.toNat} does not match the peer's time slice {peer.toNat}"
  | .roleModeConflict typed configured =>
      s!"a {typed.name} role cannot run with a {configured.name} configuration"
  | .zeroTimeSlice => "the time slice must be at least 1"

namespace Settings

/-- A slice must have at least one instruction. -/
def validate (settings : Settings) : Except SettingsError Unit :=
  if settings.timeSlice = 0 then .error .zeroTimeSlice else .ok ()

/-- A role made for one mode accepts valid settings of that mode only. -/
def checkFor (settings : Settings) (typed : Mode) : Except SettingsError Unit := do
  settings.validate
  if settings.mode ≠ typed then
    throw (.roleModeConflict typed settings.mode)

end Settings

end Garbling
