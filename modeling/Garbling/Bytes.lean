/-!
# Byte strings

Messages, hash inputs and bit columns are lists of bytes. A number is written with its
least significant byte first, and writing what was read gives the bytes again.
-/

namespace Garbling

/-- A byte string, first byte first. -/
abbrev Bytes := List UInt8

/-- A byte string of exactly `size` bytes. -/
abbrev Block (size : Nat) := { bytes : Bytes // bytes.length = size }

namespace Bytes

/-- The `width` low base-256 digits of `value`, least significant first. -/
def ofNat : (width value : Nat) → Bytes
  | 0, _ => []
  | width + 1, value => UInt8.ofNat value :: ofNat width (value / 256)

/-- The number whose base-256 digits, least significant first, are the given bytes. -/
def toNat : Bytes → Nat
  | [] => 0
  | byte :: rest => byte.toNat + 256 * toNat rest

@[simp] theorem length_ofNat (width value : Nat) : (ofNat width value).length = width := by
  induction width generalizing value with
  | zero => rfl
  | succ width inductionHypothesis => simp [ofNat, inductionHypothesis]

/-- Writing what was read gives the bytes back. -/
theorem ofNat_toNat (bytes : Bytes) : ofNat bytes.length (toNat bytes) = bytes := by
  induction bytes with
  | nil => rfl
  | cons byte rest inductionHypothesis =>
      have small := byte.toNat_lt
      simp only [List.length_cons, ofNat, toNat]
      rw [show (byte.toNat + 256 * toNat rest) / 256 = toNat rest by omega, inductionHypothesis]
      congr 1
      apply UInt8.toNat_inj.mp
      rw [UInt8.toNat_ofNat']
      omega

/-- Exclusive or of the overlapping part; what `bytes` has beyond `pad` stays as it is. -/
def xor : (bytes pad : Bytes) → Bytes
  | byte :: rest, mask :: pad => (byte ^^^ mask) :: xor rest pad
  | bytes, [] => bytes
  | [], _ => []

@[simp] theorem length_xor (bytes pad : Bytes) : (xor bytes pad).length = bytes.length := by
  fun_induction xor bytes pad <;> simp_all

end Bytes

end Garbling
