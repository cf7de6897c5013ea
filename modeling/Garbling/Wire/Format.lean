import Garbling.Label
import Garbling.Wire.DecodeError

/-!
# Formats

A format writes the values of a type as bytes and reads them back from the front of a byte
string, leaving the rest. Formats are put together from formats of numbers and bytes. Two
layouts of numbers are known: on the wire every number has its fixed width, and in a store
small numbers take one byte.
-/

namespace Garbling

/-- Reads a value from the front of a byte string and leaves the rest. -/
abbrev Decoder (value : Type) := StateT Bytes (Except DecodeError) value

/-- How the values of a type are written and read. -/
structure Format (value : Type) where
  encode : value → Bytes
  decode : Decoder value

namespace Decoder

/-- The given number of bytes, or `shortage` if there are not as many. -/
def take (count : Nat) (shortage : DecodeError) : Decoder Bytes := fun bytes =>
  let taken := bytes.take count
  if taken.length = count then .ok (taken, bytes.drop count) else .error shortage

/-- One byte. -/
def byte : Decoder UInt8
  | [] => .error .endOfData
  | byte :: rest => .ok (byte, rest)

/-- The given number of values, one after the other. -/
def repeated {value : Type} (decoder : Decoder value) : (count : Nat) → Decoder (List value)
  | 0 => return []
  | count + 1 => do
      let first ← decoder
      return first :: (← repeated decoder count)

end Decoder

namespace Format

variable {α β γ : Type}

/-- Values that are carried over from another type. -/
def map (format : Format α) (into : α → β) (back : β → α) : Format β where
  encode value := format.encode (back value)
  decode := into <$> format.decode

/-- Values that are carried over from another type, some of whose values have no counterpart. -/
def mapChecked (format : Format α) (into : α → Except DecodeError β) (back : β → α) :
    Format β where
  encode value := format.encode (back value)
  decode := do into (← format.decode)

/-- One value after the other. -/
def pair (first : Format α) (second : Format β) : Format (α × β) where
  encode value := first.encode value.1 ++ second.encode value.2
  decode := return (← first.decode, ← second.decode)

/-- A byte as it is. -/
def byte : Format UInt8 where
  encode value := [value]
  decode := Decoder.byte

/-- A number of the given number of bytes, least significant byte first. -/
def number (width : Nat) : Format Nat where
  encode value := Bytes.ofNat width value
  decode := Bytes.toNat <$> Decoder.take width .endOfData

/-- A number below 251 as one byte; any other after a mark that tells its width. -/
def compactNumber : Format Nat where
  encode value :=
    if value < 251 then [UInt8.ofNat value]
    else if value < 1 <<< 16 then 251 :: Bytes.ofNat 2 value
    else if value < 1 <<< 32 then 252 :: Bytes.ofNat 4 value
    else if value < 1 <<< 64 then 253 :: Bytes.ofNat 8 value
    else 254 :: Bytes.ofNat 16 value
  decode := do
    match ← Decoder.byte with
    | 251 => (number 2).decode
    | 252 => (number 4).decode
    | 253 => (number 8).decode
    | 254 => (number 16).decode
    | 255 => throw (.invalidTag 255)
    | byte => return byte.toNat

/-- A truth value as the byte 0 or 1. -/
def bool : Format Bool where
  encode value := [value.toUInt8]
  decode := do
    match ← Decoder.byte with
    | 0 => return false
    | 1 => return true
    | found => throw (.invalidBool found)

/-- A byte string of fixed length, without its length. -/
def block (size : Nat) : Format (Block size) where
  encode value := value.val
  decode := fun bytes =>
    if h : (bytes.take size).length = size then .ok (⟨bytes.take size, h⟩, bytes.drop size)
    else .error .endOfData

/-- A value that may be absent, after a byte that tells. -/
def optional (format : Format α) : Format (Option α) where
  encode
    | none => [0]
    | some value => 1 :: format.encode value
  decode := do
    match ← Decoder.byte with
    | 0 => return none
    | 1 => return some (← format.decode)
    | found => throw (.invalidTag found)

end Format

/-- How numbers are written. -/
structure Layout where
  word32 : Format UInt32
  word64 : Format UInt64
  word128 : Format Word

namespace Layout

variable {α : Type}

/-- The layout in which the numbers of each width have the given format. -/
def ofNumbers (number : (width : Nat) → Format Nat) : Layout where
  word32 := (number 4).map UInt32.ofNat UInt32.toNat
  word64 := (number 8).map UInt64.ofNat UInt64.toNat
  word128 := (number 16).map (BitVec.ofNat 128) BitVec.toNat

/-- Every number has its full width. -/
def fixed : Layout := ofNumbers Format.number

/-- A number takes one byte, or a mark and the least width that is enough for it. -/
def compact : Layout := ofNumbers fun _ => Format.compactNumber

/-- A list after the number of its values. -/
def list (layout : Layout) (format : Format α) : Format (List α) where
  encode values :=
    layout.word64.encode (UInt64.ofNat values.length) ++ values.flatMap format.encode
  decode := do
    let count ← layout.word64.decode
    Decoder.repeated format.decode count.toNat

/-- A text after the number of its bytes. -/
def text (layout : Layout) : Format String where
  encode value :=
    let bytes := Text.encode value
    layout.word64.encode (UInt64.ofNat bytes.length) ++ bytes
  decode := do
    let count ← layout.word64.decode
    let bytes ← Decoder.take count.toNat .endOfText
    match Text.decode bytes with
    | .ok value => return value
    | .error fault => throw (.invalidText fault)

/-- The number of an alternative, of which there are `count`. -/
def variant (layout : Layout) (count : Nat) : Decoder (Fin count) := do
  let found ← layout.word32.decode
  if h : found.toNat < count then return ⟨found.toNat, h⟩
  else throw (.invalidVariant found count)

end Layout

end Garbling
