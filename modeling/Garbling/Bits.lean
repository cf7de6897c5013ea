import Garbling.Bytes

/-!
# Bits

Bits make up numbers and bytes with the first bit in the least significant place. A bit matrix
kept as packed columns is turned into rows of 128 bits.
-/

namespace Garbling

namespace Bits

/-- The byte whose bit `i` is the `i`-th of the given bits; missing bits are zero and bits
after the eighth are ignored. -/
def octet (bits : List Bool) : UInt8 :=
  UInt8.ofNat ((bits.take 8).foldr (fun bit above => bit.toNat + 2 * above) 0)

/-- The value of some bits, least significant first. Bits after the 64th are lost. -/
def value (bits : List Bool) : UInt64 :=
  bits.foldr (fun bit above => bit.toUInt64 + 2 * above) 0

/-- Eight bits to a byte, the last byte filled up with zero bits. -/
def pack (bits : List Bool) : Bytes :=
  (List.range ((bits.length + 7) / 8)).map fun index => octet (bits.drop (8 * index))

/-- Bit `index` of a packed column; a column has zeros after its end. -/
def ofColumn (column : Bytes) (index : Nat) : Bool :=
  match column[index / 8]? with
  | some byte => byte.toNat.testBit (index % 8)
  | none => false

/-- Row `index` of a matrix of packed columns: bit `j` comes from column `j`. Columns after
the first 128 are ignored. -/
def row (columns : List Bytes) (index : Nat) : BitVec 128 :=
  (columns.take 128).foldr (fun column above => above <<< 1 ||| (BitVec.ofBool (ofColumn column index)).zeroExtend 128) 0

/-- The first `count` rows of a matrix of packed columns. -/
def transpose (columns : List Bytes) (count : Nat) : List (BitVec 128) :=
  (List.range count).map (row columns)

@[simp] theorem length_pack (bits : List Bool) : (pack bits).length = (bits.length + 7) / 8 := by
  simp [pack]

@[simp] theorem length_transpose (columns : List Bytes) (count : Nat) :
    (transpose columns count).length = count := by
  simp [transpose]

end Bits

end Garbling
