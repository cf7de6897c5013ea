import Garbling.Bits
import Garbling.Transfer.Base

/-!
# Extended transfers

128 base transfers give both sides generators of bit columns: the receiver two for each
column, the sender the one of them that a bit of its offset selects. After that a round of any
number of transfers costs one message. It leaves the sender with a row of bits for each
transfer and the receiver with the same row, or with the row that differs from it by the
offset if the receiver's choice bit is set.
-/

namespace Garbling

/-- The number of columns, one for each bit of the offset. -/
def columnCount : Nat := 128

/-- One side of the extended transfers. -/
inductive Extension (suite : Suite) where
  | idle
  /-- The sender's offset and its generator for each column. -/
  | sender (offset : Offset) (columns : List suite.Generator)
  /-- The receiver's two generators for each column. -/
  | receiver (columns : List (suite.Generator × suite.Generator))

namespace Extension

variable {suite : Suite}

/-- The generators of the sender, from base transfers in which it chooses by the bits of its
offset. The state is the sender's own generator. -/
def setupSender (suite : Suite) (offset : Offset) : Session suite.Generator (Extension suite) := do
  let seeds ← BaseTransfer.receive suite ((List.range columnCount).map offset.bit)
  return .sender offset (seeds.map suite.expand)

/-- Some pairs of random words. -/
def drawPairs (suite : Suite) : (count : Nat) → Session suite.Generator (List (Word × Word))
  | 0 => return []
  | count + 1 => do
      let first ← modifyGet suite.word
      let second ← modifyGet suite.word
      return (first, second) :: (← drawPairs suite count)

/-- The generators of the receiver, from base transfers in which it offers two seeds for each
column. -/
def setupReceiver (suite : Suite) : Session suite.Generator (Extension suite) := do
  let seeds ← drawPairs suite columnCount
  BaseTransfer.send suite seeds
  return .receiver (seeds.map fun (first, second) => (suite.expand first, suite.expand second))

/-- Sets up one side, once: the sender if there is an offset, the receiver otherwise. A setup
that fails leaves the side as it was. -/
def setup (offset : Option Offset) : Session (Extension suite × suite.Generator) Unit := do
  match (← get).1 with
  | .idle =>
      let extension ← Session.zoom Prod.snd (fun generator state => (state.1, generator)) <|
        match offset with
        | some offset => setupSender suite offset
        | none => setupReceiver suite
      modify fun (_, generator) => (extension, generator)
  | .sender .. | .receiver .. => throw (.violation .transferSetupRepeated)

/-- The sender's columns of one round, each from its generator and, where the offset has a
bit, from the receiver's column. Generators before a column of the wrong length have moved on,
the others have not. -/
def senderColumns (offset : Offset) (width : Nat) :
    (index : Nat) → List suite.Generator → List Bytes →
      Except Violation (List Bytes) × List suite.Generator
  | _, [], _ => (.ok [], [])
  | _, generators, [] => (.ok [], generators)
  | index, generator :: generators, masked :: rest =>
      if masked.length ≠ width then
        (.error (.invalidTransferMessage .columnLength), generator :: generators)
      else
        let (own, generator) := suite.fill generator width
        let column := if offset.bit index then own.xor masked else own
        let (columns, generators) := senderColumns offset width (index + 1) generators rest
        (columns.map (column :: ·), generator :: generators)

/-- The receiver's own columns of one round and the masked ones for the sender. -/
def receiverColumns (choices : Bytes) :
    List (suite.Generator × suite.Generator) →
      List (Bytes × Bytes) × List (suite.Generator × suite.Generator)
  | [] => ([], [])
  | (first, second) :: generators =>
      let (own, first) := suite.fill first choices.length
      let (other, second) := suite.fill second choices.length
      let (columns, generators) := receiverColumns choices generators
      ((own, (other.xor own).xor choices) :: columns, (first, second) :: generators)

/-- One round of the given number of transfers. The sender has no choices; the receiver needs
one for each transfer. -/
def extend (count : Nat) (choices : List Bool) : Session (Extension suite) (List Label) := do
  match ← get with
  | .idle => throw (.violation .transferNotSetUp)
  | .sender offset generators =>
      let masked ← Session.receiveList .columns Layout.fixed.columns generators.length
      let (columns, generators) := senderColumns offset ((count + 7) / 8) 0 generators masked
      set (Extension.sender offset generators)
      return (Bits.transpose (← Session.allowed columns) count).map Label.mk
  | .receiver generators =>
      if choices.length ≠ count then
        throw (.violation (.missingInputLabels count choices.length))
      let (columns, generators) := receiverColumns (Bits.pack choices) generators
      set (Extension.receiver generators)
      Session.send .columns Layout.fixed.columns (columns.map Prod.snd)
      return (Bits.transpose (columns.map Prod.fst) choices.length).map Label.mk

end Extension

end Garbling
