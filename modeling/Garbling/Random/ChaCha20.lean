import Garbling.Words

/-!
# The ChaCha20 generator

The key stream of ChaCha20 with a 64-bit block counter and stream number 0, read as
little-endian words. A generator is a key and a position in the stream; a request for bytes
takes whole words and drops the bytes of the last word that are not asked for.
-/

namespace Garbling.ChaCha20

/-- The quarter round on one lane of the state. -/
def quarterRound (state : Square) (lane : Lane) : Square :=
  let a := state.get lane.a + state.get lane.b
  let d := rotateLeft (state.get lane.d ^^^ a) 16
  let c := state.get lane.c + d
  let b := rotateLeft (state.get lane.b ^^^ c) 12
  let a := a + b
  let d := rotateLeft (d ^^^ a) 8
  let c := c + d
  let b := rotateLeft (b ^^^ c) 7
  (((state.put lane.a a).put lane.b b).put lane.c c).put lane.d d

/-- The given number of double rounds. -/
def doubleRounds : Nat → Square → Square
  | 0, state => state
  | count + 1, state => doubleRounds count (Square.lanes.foldl quarterRound state)

/-- The block of the key stream with the given number. -/
def block (key : Vector UInt32 8) (number : UInt64) : Square :=
  let head : Vector UInt32 4 := #v[0x61707865, 0x3320646E, 0x79622D32, 0x6B206574]
  let tail : Vector UInt32 4 := #v[number.toUInt32, (number >>> 32).toUInt32, 0, 0]
  let start : Square := head ++ key ++ tail
  (doubleRounds 10 start).zipWith (· + ·) start

/-- A position in the key stream of a key. -/
structure Generator where
  key : Vector UInt32 8
  /-- The number of words taken so far. -/
  position : Nat

namespace Generator

/-- The generator at the start of the key stream of a 32-byte key. -/
def ofSeed (seed : Bytes) : Generator :=
  ⟨(Square.ofBytes seed).low, 0⟩

/-- The given number of words at the position, without moving on. -/
def words (generator : Generator) (count : Nat) : List UInt32 :=
  let first := generator.position / 16
  let blocks := (generator.position + count + 15) / 16 - first
  let stream := (List.range blocks).flatMap fun index =>
    (block generator.key (UInt64.ofNat (first + index))).toList
  (stream.drop (generator.position % 16)).take count

/-- The next bytes of the stream. Whole words are taken, so bytes that fill up the last word
are lost. -/
def fill (generator : Generator) (count : Nat) : Bytes × Generator :=
  let taken := (count + 3) / 4
  let bytes := (generator.words taken).flatMap fun word => Bytes.ofNat 4 word.toNat
  (bytes.take count, { generator with position := generator.position + taken })

end Generator

end Garbling.ChaCha20
