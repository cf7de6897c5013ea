import Garbling.Curve.Ristretto
import Garbling.Hash.Blake3
import Garbling.Random.ChaCha20
import Garbling.Suite.Basic

/-!
# The standard suite

BLAKE3 for pads and keys, ChaCha20 for randomness, and the Ristretto group.
-/

namespace Garbling.Suite

/-- The suite with which runs are carried out. -/
def standard : Suite where
  pad label tweak := ⟨Word.ofBytes (Blake3.hash (label.bits.toBytes ++ tweak.toBytes))⟩
  Generator := ChaCha20.Generator
  fill := ChaCha20.Generator.fill
  expand seed := ChaCha20.Generator.ofSeed (Blake3.hash seed.toBytes)
  Point := Curve.Point
  Scalar := Fin Ristretto.order
  scalarOfBytes bytes := Fin.ofNat Ristretto.order bytes.toNat
  mulGenerator scalar := Ristretto.mulGenerator scalar.val
  mul scalar := Curve.Point.mul scalar.val
  add := Curve.Point.add
  sub := Curve.Point.sub
  encode := Ristretto.encode
  decode := Ristretto.decode
  pointKey point index :=
    Word.ofBytes (Blake3.keyedHash (Ristretto.encode point).val (Bytes.ofNat 16 index))

end Garbling.Suite
