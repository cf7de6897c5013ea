import Garbling.HalfGate

/-!
# Cryptographic suites

The protocol rests on a pad for gates, a generator of random bytes, and a group. It uses them
only through the operations gathered here, so what it computes can be studied for any choice
of them.
-/

namespace Garbling

/-- The primitives that the protocol is made of. -/
structure Suite where
  /-- The pad under which the gates are encrypted. -/
  pad : Pad
  /-- The states of a random generator. -/
  Generator : Type
  /-- The next bytes of a generator, as many as asked for. -/
  fill : Generator → Nat → Bytes × Generator
  /-- The generator that a shared secret stands for. -/
  expand : Word → Generator
  /-- The elements of the group. -/
  Point : Type
  /-- The numbers by which elements are multiplied. -/
  Scalar : Type
  /-- The scalar that 64 random bytes stand for. -/
  scalarOfBytes : Bytes → Scalar
  /-- A multiple of the generator of the group. -/
  mulGenerator : Scalar → Point
  /-- A multiple of an element. -/
  mul : Scalar → Point → Point
  add : Point → Point → Point
  sub : Point → Point → Point
  /-- The bytes of an element. -/
  encode : Point → Block 32
  /-- The element with the given bytes, if there is one. -/
  decode : Block 32 → Option Point
  /-- The secret that an element stands for in the transfer with the given index. -/
  pointKey : Point → Nat → Word

namespace Suite

variable (suite : Suite)

/-- A random word: sixteen bytes, least significant first. -/
def word (generator : suite.Generator) : Word × suite.Generator :=
  let (bytes, generator) := suite.fill generator 16
  (Word.ofBytes bytes, generator)

/-- A random label. -/
def label (generator : suite.Generator) : Label × suite.Generator :=
  let (bits, generator) := suite.word generator
  (⟨bits⟩, generator)

/-- Some random labels. -/
def labels : (count : Nat) → suite.Generator → List Label × suite.Generator
  | 0, generator => ([], generator)
  | count + 1, generator =>
      let (first, generator) := suite.label generator
      let (rest, generator) := labels count generator
      (first :: rest, generator)

/-- A random offset, its color bit set. -/
def offset (generator : suite.Generator) : Offset × suite.Generator :=
  let (bits, generator) := suite.word generator
  (.colored bits, generator)

/-- A random scalar. -/
def scalar (generator : suite.Generator) : suite.Scalar × suite.Generator :=
  let (bytes, generator) := suite.fill generator 64
  (suite.scalarOfBytes bytes, generator)

end Suite

end Garbling
