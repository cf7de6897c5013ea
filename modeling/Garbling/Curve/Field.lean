/-!
# The field of the curve

Arithmetic modulo `2 ^ 255 - 19`, with the square root of a ratio that encoding and decoding
of points rest on.
-/

namespace Garbling.Curve

/-- The order of the field. -/
abbrev modulus : Nat := (1 <<< 255) - 19

theorem modulus_ne_zero : modulus ≠ 0 := by decide

instance : @NeZero Nat Zero.ofOfNat0 modulus := ⟨modulus_ne_zero⟩

/-- An element of the field. -/
abbrev Field := Fin modulus

namespace Field

/-- The element with the given residue. -/
def ofNat (value : Nat) : Field := Fin.ofNat modulus value

/-- An element is negative when its least residue is odd. -/
def isNegative (x : Field) : Bool := x.val % 2 == 1

/-- The element or its negation, whichever is not negative. -/
def abs (x : Field) : Field := if x.isNegative then -x else x

/-- `x ^ (2 ^ count)`. -/
def squareTimes (x : Field) : (count : Nat) → Field
  | 0 => x
  | count + 1 => squareTimes (x * x) count

/-- `x ^ (2 ^ 252 - 3)`, the exponent being five less than the order, divided by eight. Each
intermediate value is named for the number of one bits in its exponent. -/
def ratioPower (x : Field) : Field :=
  let ones2 := x.squareTimes 1 * x
  let ones4 := ones2.squareTimes 2 * ones2
  let ones5 := ones4.squareTimes 1 * x
  let ones10 := ones5.squareTimes 5 * ones5
  let ones20 := ones10.squareTimes 10 * ones10
  let ones40 := ones20.squareTimes 20 * ones20
  let ones50 := ones40.squareTimes 10 * ones10
  let ones100 := ones50.squareTimes 50 * ones50
  let ones200 := ones100.squareTimes 100 * ones100
  let ones250 := ones200.squareTimes 50 * ones50
  ones250.squareTimes 2 * x

/-- A square root of minus one. -/
def imaginary : Field :=
  ofNat 19681161376707505956807079304988542015446066515923890162744021073123829784752

/-- The nonnegative square root of `u / v`, if there is one; otherwise that of
`imaginary * u / v`. The flag tells which. If `v` is zero the root is zero, and it counts as a
root only if `u` is zero too. -/
def sqrtRatio (u v : Field) : Bool × Field :=
  let v3 := v * v * v
  let v7 := v3 * v3 * v
  let root := u * v3 * (u * v7).ratioPower
  let check := v * root * root
  let isRoot := check == u
  let isFlipped := check == -u
  let isFlippedImaginary := check == -u * imaginary
  let root := if isFlipped || isFlippedImaginary then root * imaginary else root
  (isRoot || isFlipped, root.abs)

end Field

end Garbling.Curve
