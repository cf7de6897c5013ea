import Garbling.Bytes

/-!
# States of sixteen words

Both the hash function and the generator mix a state of sixteen 32-bit words, arranged as a
four by four square, first along its columns and then along its diagonals.
-/

namespace Garbling

/-- A place of a square, counted row by row. -/
abbrev Place := Fin 16

instance instNeZeroSixteen : @NeZero Nat Zero.ofOfNat0 16 := ⟨Nat.succ_ne_zero 15⟩

/-- Sixteen words, row by row. -/
abbrev Square := Vector UInt32 16

/-- Four places of a square that are mixed with one another. -/
structure Lane where
  a : Place
  b : Place
  c : Place
  d : Place

namespace Square

/-- The square with another word at a place. -/
def put (square : Square) (place : Place) (word : UInt32) : Square :=
  square.set place.val word place.isLt

/-- The four columns of a square. -/
def columns : List Lane :=
  [⟨0, 4, 8, 12⟩, ⟨1, 5, 9, 13⟩, ⟨2, 6, 10, 14⟩, ⟨3, 7, 11, 15⟩]

/-- The four diagonals of a square. -/
def diagonals : List Lane :=
  [⟨0, 5, 10, 15⟩, ⟨1, 6, 11, 12⟩, ⟨2, 7, 8, 13⟩, ⟨3, 4, 9, 14⟩]

/-- The columns and then the diagonals: the order of one round. -/
def lanes : List Lane := columns ++ diagonals

/-- The words of a square as bytes, each word with its least significant byte first. -/
def toBytes (square : Square) : Bytes :=
  square.toList.flatMap fun word => Bytes.ofNat 4 word.toNat

/-- Up to 64 bytes as a square, filled up with zeros. -/
def ofBytes (bytes : Bytes) : Square :=
  let bytes := bytes.toArray
  let byte (index : Nat) : UInt32 := (bytes.getD index 0).toUInt32
  (Vector.finRange 16).map fun index =>
    byte (4 * index.val) ||| byte (4 * index.val + 1) <<< 8 |||
      byte (4 * index.val + 2) <<< 16 ||| byte (4 * index.val + 3) <<< 24

/-- The first eight words. -/
def low (square : Square) : Vector UInt32 8 :=
  (Vector.finRange 8).map fun index => square[index.val]

/-- The last eight words. -/
def high (square : Square) : Vector UInt32 8 :=
  (Vector.finRange 8).map fun index => square[index.val + 8]

end Square

/-- Rotation to the left, for amounts strictly between 0 and 32. -/
def rotateLeft (word amount : UInt32) : UInt32 :=
  (word <<< amount) ||| (word >>> (32 - amount))

/-- Rotation to the right, for amounts strictly between 0 and 32. -/
def rotateRight (word amount : UInt32) : UInt32 :=
  (word >>> amount) ||| (word <<< (32 - amount))

end Garbling
