import Garbling.Bytes

/-!
# Wire labels

Every wire of a garbled circuit has two labels of 128 bits, one for each truth value. They
differ by one secret offset, the same for all wires. The least significant bit of a label is
its color; the offset of a run has it set, so the two labels of a wire have opposite colors.
-/

namespace Garbling

/-- A number of 128 bits. -/
abbrev Word := BitVec 128

namespace Word

/-- The sixteen bytes of a word, least significant first. -/
def toBytes (word : Word) : Bytes := Bytes.ofNat 16 word.toNat

/-- The word that the first sixteen bytes write. -/
def ofBytes (bytes : Bytes) : Word := BitVec.ofNat 128 (Bytes.toNat (bytes.take 16))

end Word

/-- A label of a wire. -/
structure Label where
  bits : Word
deriving DecidableEq

/-- The difference of the two labels of every wire. -/
structure Offset where
  bits : Word
deriving DecidableEq

namespace Label

/-- The label without a set bit. -/
def zero : Label := ⟨0⟩

instance : Inhabited Label := ⟨zero⟩

/-- Bitwise exclusive or. -/
def xor (a b : Label) : Label := ⟨a.bits ^^^ b.bits⟩

instance : XorOp Label := ⟨xor⟩

/-- The least significant bit. -/
def color (label : Label) : Bool := label.bits.getLsbD 0

/-- The label itself if the choice is set, and the zero label otherwise. -/
def select (label : Label) (choice : Bool) : Label := if choice then label else zero

/-- The second label if the choice is set, and the first otherwise. -/
def choose (a b : Label) (choice : Bool) : Label := if choice then b else a

@[simp] theorem bits_xor (a b : Label) : (a ^^^ b).bits = a.bits ^^^ b.bits := rfl

end Label

namespace Offset

/-- The offset as the label that a set bit contributes. -/
def toLabel (offset : Offset) : Label := ⟨offset.bits⟩

/-- The contribution of a truth value: the offset if it is set, nothing otherwise. -/
def times (offset : Offset) (bit : Bool) : Label := offset.toLabel.select bit

/-- Bit `index` of the offset. -/
def bit (offset : Offset) (index : Nat) : Bool := offset.bits.getLsbD index

/-- The offset with the given bits, its color bit set. -/
def colored (bits : Word) : Offset := ⟨bits ||| 1⟩

/-- What is shown in place of an offset, which is secret. -/
def shown (_ : Offset) : String := "Delta(..)"

end Offset

/-- The color of the zero label of a wire, which hides the truth value of the wire from
whoever sees only the color of the active label. -/
structure Mask where
  color : Bool
deriving DecidableEq

/-- The truth value of a wire from its mask and its active label. -/
def Mask.decode (mask : Mask) (active : Label) : Bool := active.color ^^ mask.color

end Garbling
