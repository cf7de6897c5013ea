import Garbling.Curve.Field

/-!
# The twisted Edwards curve

Points of the curve `-x² + y² = 1 + d x² y²` in extended coordinates, with complete addition,
doubling and multiplication by numbers.
-/

namespace Garbling.Curve

/-- A point with `x = X / Z`, `y = Y / Z` and `x * y = T / Z`. -/
structure Point where
  X : Field
  Y : Field
  Z : Field
  T : Field

/-- The coefficient `d` of the curve. -/
def coefficient : Field :=
  Field.ofNat 37095705934669439343138083508754565189542113879843219016388785533085940283555

/-- Twice the coefficient. -/
def twiceCoefficient : Field := coefficient + coefficient

namespace Point

/-- The neutral element. -/
def zero : Point := ⟨0, 1, 1, 0⟩

/-- The sum of two points, equal or not. -/
def add (P Q : Point) : Point :=
  let a := (P.Y - P.X) * (Q.Y - Q.X)
  let b := (P.Y + P.X) * (Q.Y + Q.X)
  let c := twiceCoefficient * P.T * Q.T
  let d := (P.Z + P.Z) * Q.Z
  let e := b - a
  let f := d - c
  let g := d + c
  let h := b + a
  ⟨e * f, g * h, f * g, e * h⟩

/-- The inverse of a point. -/
def neg (P : Point) : Point := ⟨-P.X, P.Y, P.Z, -P.T⟩

/-- The difference of two points. -/
def sub (P Q : Point) : Point := P.add Q.neg

/-- The sum of a point with itself. -/
def double (P : Point) : Point :=
  let a := P.X * P.X
  let b := P.Y * P.Y
  let c := P.Z * P.Z
  let c := c + c
  let e := (P.X + P.Y) * (P.X + P.Y) - a - b
  let g := b - a
  let f := g - c
  let h := -a - b
  ⟨e * f, g * h, f * g, e * h⟩

/-- The multiples `0 * P`, `1 * P`, …, `15 * P`. -/
def multiples (P : Point) : Vector Point 16 :=
  let P₂ := P.double
  let P₃ := P₂.add P
  let P₄ := P₂.double
  let P₅ := P₄.add P
  let P₆ := P₃.double
  let P₇ := P₆.add P
  let P₈ := P₄.double
  let P₉ := P₈.add P
  let P₁₀ := P₅.double
  let P₁₁ := P₁₀.add P
  let P₁₂ := P₆.double
  let P₁₃ := P₁₂.add P
  let P₁₄ := P₇.double
  let P₁₅ := P₁₄.add P
  #v[zero, P, P₂, P₃, P₄, P₅, P₆, P₇, P₈, P₉, P₁₀, P₁₁, P₁₂, P₁₃, P₁₄, P₁₅]

/-- The least significant base-16 digit of a number. -/
def digit (scalar : Nat) : Fin 16 :=
  ⟨scalar % 16, Nat.mod_lt scalar (by decide)⟩

/-- `scalar * P` for scalars of at most 64 base-16 digits, from the most significant digit
down. -/
def mul (scalar : Nat) (P : Point) : Point :=
  let table := P.multiples
  (List.range 64).foldl
    (fun sum index =>
      sum.double.double.double.double.add (table.get (digit (scalar >>> (4 * (63 - index))))))
    zero

/-- For each of the 64 positions the multiples of `16 ^ position * P`. -/
def positionTable (P : Point) : List (Vector Point 16) :=
  go 64 P
where
  /-- The tables of `count` positions, the first of them for the given point. -/
  go : (count : Nat) → Point → List (Vector Point 16)
    | 0, _ => []
    | count + 1, power => power.multiples :: go count power.double.double.double.double

/-- `scalar * P` from the position table of `P`, for scalars of at most 64 base-16 digits. -/
def mulTable (table : List (Vector Point 16)) (scalar : Nat) : Point :=
  go table scalar zero
where
  /-- Adds the multiples that the remaining digits select. -/
  go : List (Vector Point 16) → Nat → Point → Point
    | [], _, sum => sum
    | multiples :: rest, scalar, sum =>
        go rest (scalar / 16) (sum.add (multiples.get (digit scalar)))

end Point

end Garbling.Curve
