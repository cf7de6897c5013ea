import Garbling.Bytes
import Garbling.Curve.Edwards

/-!
# The Ristretto group

A group of prime order whose elements are classes of curve points. Each element has exactly
one encoding of 32 bytes: decoding accepts a nonnegative field element below the order of the
field that belongs to a point, and encoding a decoded element gives its bytes back.
-/

namespace Garbling.Ristretto

open Curve

/-- The number of elements of the group. -/
def order : Nat := (1 <<< 252) + 27742317777372353535851937790883648493

theorem order_ne_zero : order ≠ 0 := by decide

instance : @NeZero Nat Zero.ofOfNat0 order := ⟨order_ne_zero⟩

/-- The generator of the group. -/
def generator : Point :=
  let x := Field.ofNat 15112221349535400772501151409588531511454012693041857206046113283949847762202
  let y := Field.ofNat 46316835694926478169428394003475163141307993866256225615783033603165251855960
  ⟨x, y, 1, x * y⟩

/-- The multiples of the generator that a base multiplication adds up. -/
def generatorTable : List (Vector Point 16) := generator.positionTable

/-- `scalar` times the generator. -/
def mulGenerator (scalar : Nat) : Point := Point.mulTable generatorTable scalar

/-- One over the square root of `-1 - d`. -/
def rotationFactor : Field :=
  Field.ofNat 54469307008909316920995813868745141605393597292927456921205312896311721017578

/-- The 32 bytes of a group element. -/
def encode (P : Point) : Block 32 :=
  let u₁ := (P.Z + P.Y) * (P.Z - P.Y)
  let u₂ := P.X * P.Y
  let root := (Field.sqrtRatio 1 (u₁ * u₂ * u₂)).2
  let den₁ := root * u₁
  let den₂ := root * u₂
  let inverseZ := den₁ * den₂ * P.T
  let rotate := (P.T * inverseZ).isNegative
  let x := if rotate then P.Y * Field.imaginary else P.X
  let y := if rotate then P.X * Field.imaginary else P.Y
  let den := if rotate then den₁ * rotationFactor else den₂
  let y := if (x * inverseZ).isNegative then -y else y
  ⟨Bytes.ofNat 32 (den * (P.Z - y)).abs.val, Bytes.length_ofNat ..⟩

/-- The group element with the given encoding, if the bytes are one. -/
def decode (bytes : Block 32) : Option Point :=
  let value := Bytes.toNat bytes.val
  if value < modulus ∧ value % 2 = 0 then
    let s := Field.ofNat value
    let ss := s * s
    let u₁ := 1 - ss
    let u₂ := 1 + ss
    let u₂Square := u₂ * u₂
    let v := -(coefficient * u₁ * u₁) - u₂Square
    let (isSquare, root) := Field.sqrtRatio 1 (v * u₂Square)
    let denX := root * u₂
    let denY := root * denX * v
    let x := ((s + s) * denX).abs
    let y := u₁ * denY
    let t := x * y
    if isSquare && !t.isNegative && y != 0 then some ⟨x, y, 1, t⟩ else none
  else none

end Garbling.Ristretto
