import Garbling.Error

/-!
# The log of revealed values

Values are logged in the order in which they are revealed. The values before the watermark are
open to both parties; behind it the evaluator alone may know a value.
-/

namespace Garbling

/-- The values revealed so far and the number of them that are open to both parties. -/
structure RevealLog where
  values : Array (Option UInt64) := #[]
  opened : Nat := 0
deriving DecidableEq, Repr

namespace RevealLog

/-- Logs one more value, which is not open yet. -/
def push (log : RevealLog) (value : Option UInt64) : RevealLog :=
  { log with values := log.values.push value }

/-- The number of values that are not open yet. -/
def pending (log : RevealLog) : Nat := log.values.size - log.opened

/-- The open values that are known, in order. -/
def revealed (log : RevealLog) : List UInt64 :=
  (log.values.toList.take log.opened).filterMap id

/-- The known values among those that were not open, all of which are open afterwards. -/
def takeOpenings (log : RevealLog) : List UInt64 × RevealLog :=
  ((log.values.toList.drop log.opened).filterMap id, { log with opened := log.values.size })

/-- Fills in the values that were not open, if there is one for each of them. -/
def applyOpenings (log : RevealLog) (openings : List UInt64) : Except Violation RevealLog :=
  if openings.length = log.pending then
    .ok ⟨log.values.take log.opened ++ (openings.map some).toArray, log.values.size⟩
  else .error (.openingCountMismatch log.pending openings.length)

end RevealLog

end Garbling
