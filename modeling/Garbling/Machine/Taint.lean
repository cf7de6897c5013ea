/-!
# The taint flag

An instruction that depends on a value which is not open to both parties raises the flag. The
flag is read after every instruction, and reading lowers it.
-/

namespace Garbling

/-- One flag of a processor. -/
structure Taint where
  raised : Bool := false
deriving DecidableEq, Repr

/-- What reading the flag tells. -/
inductive Checkpoint where
  /-- Nothing has raised the flag since it was read last. -/
  | proceed
  /-- The last instruction has to be executed again. -/
  | restartRequested
deriving DecidableEq, Repr

namespace Taint

/-- Raises the flag. -/
def raise (_ : Taint) : Taint := ⟨true⟩

/-- Reads the flag and lowers it. -/
def checkpoint (taint : Taint) : Checkpoint × Taint :=
  (if taint.raised then .restartRequested else .proceed, ⟨false⟩)

end Taint

end Garbling
