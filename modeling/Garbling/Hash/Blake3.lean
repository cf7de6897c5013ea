import Garbling.Words

/-!
# The BLAKE3 hash function

A message is cut into chunks of 1024 bytes, each chunk into blocks of 64 bytes. The blocks of
a chunk are compressed one after the other, and the chunks are the leaves of a binary tree
whose left subtrees are full. Plain and keyed hashing share the tree and differ in the
starting value and one flag.
-/

namespace Garbling.Blake3

/-- Eight words: a chaining value or a key. -/
abbrev Chain := Vector UInt32 8

/-- The starting value of plain hashing. -/
def initial : Chain :=
  #v[0x6A09E667, 0xBB67AE85, 0x3C6EF372, 0xA54FF53A, 0x510E527F, 0x9B05688C, 0x1F83D9AB, 0x5BE0CD19]

/-- The order in which a round reads the message words of the round before it. -/
def permutation : Vector Place 16 :=
  #v[2, 6, 3, 10, 7, 0, 4, 13, 1, 11, 12, 5, 9, 14, 15, 8]

/-- The purposes of a compression. -/
inductive Flag where
  | chunkStart
  | chunkEnd
  | parent
  | root
  | keyed

/-- The bit of the flag word that stands for a purpose. -/
def Flag.bit : Flag → UInt32
  | .chunkStart => 1
  | .chunkEnd => 2
  | .parent => 4
  | .root => 8
  | .keyed => 16

/-- Mixes two message words into one lane of the state. -/
def mix (state : Square) (lane : Lane) (first second : UInt32) : Square :=
  let a := state.get lane.a + state.get lane.b + first
  let d := rotateRight (state.get lane.d ^^^ a) 16
  let c := state.get lane.c + d
  let b := rotateRight (state.get lane.b ^^^ c) 12
  let a := a + b + second
  let d := rotateRight (d ^^^ a) 8
  let c := c + d
  let b := rotateRight (b ^^^ c) 7
  (((state.put lane.a a).put lane.b b).put lane.c c).put lane.d d

/-- Mixes the given lanes one after the other, the first with the message words at `place`
and after it. -/
def mixLanes (block : Square) : List Lane → (place : Place) → Square → Square
  | [], _, state => state
  | lane :: rest, place, state =>
      mixLanes block rest (place + 2) (mix state lane (block.get place) (block.get (place + 1)))

/-- The message words in the order of the next round. -/
def permute (block : Square) : Square :=
  permutation.map block.get

/-- The given number of rounds, each on the permuted words of the one before. -/
def rounds : Nat → Square → Square → Square
  | 0, _, state => state
  | count + 1, block, state => rounds count (permute block) (mixLanes block Square.lanes 0 state)

/-- A compression that has not been carried out yet. The last one of a hash is carried out
with the root flag, every other one gives a chaining value. -/
structure Compression where
  chain : Chain
  block : Square
  counter : UInt64
  length : UInt32
  flags : UInt32

namespace Compression

/-- The compression function: seven rounds, then the halves of the state are folded. -/
def run (compression : Compression) : Square :=
  let state : Square := compression.chain ++ #v[initial[0], initial[1], initial[2], initial[3],
    compression.counter.toUInt32, (compression.counter >>> 32).toUInt32,
    compression.length, compression.flags]
  let state := rounds 7 compression.block state
  state.low.zipWith (· ^^^ ·) state.high ++ state.high.zipWith (· ^^^ ·) compression.chain

/-- The chaining value that the tree hands on. -/
def chainingValue (compression : Compression) : Chain :=
  compression.run.low

/-- The first 64 bytes of the hash whose last compression this is. -/
def rootBytes (compression : Compression) : Bytes :=
  { compression with counter := 0, flags := compression.flags ||| Flag.root.bit }.run.toBytes

end Compression

/-- Hashing under a starting value and flags shared by all compressions. -/
structure Hasher where
  start : Chain
  flags : UInt32

namespace Hasher

/-- Plain hashing. -/
def plain : Hasher := ⟨initial, 0⟩

/-- Hashing under a key of 32 bytes. -/
def keyed (key : Bytes) : Hasher :=
  ⟨(Square.ofBytes key).low, Flag.keyed.bit⟩

/-- The last compression of a chunk, after all its other blocks have been compressed.
`more` bounds the number of blocks after the first. -/
def blocks (hasher : Hasher) (index : UInt64) :
    (more : Nat) → (chain : Chain) → (startFlag : UInt32) → Bytes → Compression
  | 0, chain, startFlag, bytes => last chain startFlag bytes
  | more + 1, chain, startFlag, bytes =>
      if bytes.length ≤ 64 then last chain startFlag bytes
      else
        let block : Compression :=
          ⟨chain, Square.ofBytes (bytes.take 64), index, 64, hasher.flags ||| startFlag⟩
        blocks hasher index more block.chainingValue 0 (bytes.drop 64)
where
  /-- The compression of the last block of a chunk. -/
  last (chain : Chain) (startFlag : UInt32) (bytes : Bytes) : Compression :=
    ⟨chain, Square.ofBytes bytes, index, UInt32.ofNat bytes.length,
      hasher.flags ||| startFlag ||| Flag.chunkEnd.bit⟩

/-- The last compression of the chunk with the given index, of at most 1024 bytes. -/
def chunk (hasher : Hasher) (index : UInt64) (bytes : Bytes) : Compression :=
  hasher.blocks index 15 hasher.start Flag.chunkStart.bit bytes

/-- The compression that joins two subtrees. -/
def join (hasher : Hasher) (left right : Compression) : Compression :=
  ⟨hasher.start, left.chainingValue ++ right.chainingValue, 0, 64,
    hasher.flags ||| Flag.parent.bit⟩

/-- The last compression of the tree over `bytes`, whose first chunk has the given index. A
tree of height `h` holds at most `1024 * 2 ^ h` bytes, and its left half is full. -/
def tree (hasher : Hasher) : (height : Nat) → (index : UInt64) → Bytes → Compression
  | 0, index, bytes => hasher.chunk index bytes
  | height + 1, index, bytes =>
      let half := 1024 <<< height
      if bytes.length ≤ half then tree hasher height index bytes
      else
        hasher.join (tree hasher height index (bytes.take half))
          (tree hasher height (index + UInt64.ofNat (1 <<< height)) (bytes.drop half))

/-- The 32-byte hash of a byte string. -/
def digest (hasher : Hasher) (bytes : Bytes) : Bytes :=
  (hasher.tree (Nat.log2 bytes.length) 0 bytes).rootBytes.take 32

end Hasher

/-- The 32-byte hash of a byte string. -/
def hash (bytes : Bytes) : Bytes :=
  Hasher.plain.digest bytes

/-- The 32-byte hash of a byte string under a 32-byte key. -/
def keyedHash (key bytes : Bytes) : Bytes :=
  (Hasher.keyed key).digest bytes

end Garbling.Blake3
