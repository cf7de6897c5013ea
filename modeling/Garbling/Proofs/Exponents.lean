import Mathlib
import Garbling.Proofs.BaseTransfer
import Garbling.Proofs.Digits
import Garbling.Suite.Standard

/-!
# A group of exponents

The standard suite can be used with any group. Here an element is known by its exponent, so the
laws of the group can be looked up; the generator of the suite is the standard one.
-/

namespace Garbling

namespace ChaCha20.Generator

variable (generator : ChaCha20.Generator) (count : Nat)

theorem length_words : (generator.words count).length = count := by
  have sixteen (square : Square) : square.toList.length = 16 := square.length_toList
  have stream (numbers : List Nat) (first : Nat) :
      (numbers.flatMap fun index =>
        (block generator.key (UInt64.ofNat (first + index))).toList).length =
        16 * numbers.length := by
    simp [List.length_flatMap, sixteen, Nat.mul_comm]
  simp only [words]
  rw [List.length_take, List.length_drop, stream, List.length_range]
  omega

/-- A request is answered with as many bytes as were asked for. -/
theorem length_fill : (generator.fill count).1.length = count := by
  have four (word : UInt32) : (Bytes.ofNat 4 word.toNat).length = 4 := Bytes.length_ofNat 4 _
  have bytes (words : List UInt32) :
      (words.flatMap fun word => Bytes.ofNat 4 word.toNat).length = 4 * words.length := by
    simp [List.length_flatMap, four, Nat.mul_comm]
  rw [fill, List.length_take, bytes, length_words]
  omega

end ChaCha20.Generator

namespace Suite

/-- The standard suite with a group of exponents, of the same order. -/
def exponents : Suite :=
  { standard with
    Point := ZMod Ristretto.order
    Scalar := Fin Ristretto.order
    scalarOfBytes bytes := Fin.ofNat Ristretto.order bytes.toNat
    mulGenerator scalar := scalar.val
    mul scalar point := scalar.val • point
    add first second := first + second
    sub first second := first - second
    encode point := ⟨Bytes.ofNat 32 point.val, Bytes.length_ofNat 32 _⟩
    decode bytes :=
      let exponent := Bytes.toNat bytes.val
      if exponent < Ristretto.order then some (exponent : ZMod Ristretto.order) else none
    pointKey point index :=
      Word.ofBytes (Blake3.keyedHash (Bytes.ofNat 32 point.val) (Bytes.ofNat 16 index)) }

/-- Decoding undoes encoding. -/
theorem exponents_decode (point : ZMod Ristretto.order) :
    exponents.decode (exponents.encode point) = some point := by
  have small : Ristretto.order < 256 ^ 32 := by decide
  have bound : point.val < Ristretto.order := ZMod.val_lt point
  have read : Bytes.toNat (Bytes.ofNat 32 point.val) = point.val := by
    rw [Bytes.toNat_ofNat, Nat.mod_eq_of_lt (bound.trans small)]
  simp only [exponents, read, if_pos bound, ZMod.natCast_zmod_val]

/-- The elements of the group are their own names. -/
def ofExponents : exponents.Interpretation (ZMod Ristretto.order) where
  base := 1
  Names point element := point = element
  factor scalar := Fin.val (scalar : Fin Ristretto.order)
  mulGenerator scalar :=
    (nsmul_one (Fin.val (scalar : Fin Ristretto.order)) : _ = (_ : ZMod Ristretto.order)).symm
  mul scalar names := by
    rw [← names]
    rfl
  add names others := by
    rw [← names, ← others]
    rfl
  sub names others := by
    rw [← names, ← others]
    rfl
  decode names := ⟨_, exponents_decode _, names⟩
  pointKey index names others := by
    rw [names, others]

theorem exponents_lawful : exponents.Lawful where
  length_fill := ChaCha20.Generator.length_fill
  interpreted := ⟨ZMod Ristretto.order, inferInstance, ⟨ofExponents⟩⟩

end Suite

end Garbling
