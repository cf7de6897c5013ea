import Mathlib
import Garbling.Bytes

/-!
# Bytes as digits

A byte string of a given width writes exactly the numbers below a power of 256: what is read
is below that power, and reading what was written keeps the value modulo it.
-/

namespace Garbling.Bytes

theorem toNat_lt (bytes : Bytes) : toNat bytes < 256 ^ bytes.length := by
  induction bytes with
  | nil => simp [toNat]
  | cons byte rest inductionHypothesis =>
      have small := byte.toNat_lt
      simp only [toNat, List.length_cons, Nat.pow_succ']
      omega

/-- Reading what was written keeps the value modulo the width. -/
theorem toNat_ofNat (width value : Nat) : toNat (ofNat width value) = value % 256 ^ width := by
  induction width generalizing value with
  | zero => simp [ofNat, toNat, Nat.mod_one]
  | succ width inductionHypothesis =>
      have digits : value % (256 * 256 ^ width) = value % 256 + 256 * (value / 256 % 256 ^ width) :=
        Nat.mod_mul
      rw [Nat.pow_succ', digits]
      simp [ofNat, toNat, inductionHypothesis]

end Garbling.Bytes
