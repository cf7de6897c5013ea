import Garbling.Bytes

/-!
# Text on the wire

Text is written in UTF-8. Bytes that are no UTF-8 are refused with the place of the first
fault: after so many well-formed bytes, either the data ends inside a character or so many
bytes cannot start one.
-/

namespace Garbling.Text

/-- Where a byte string stops being UTF-8. -/
inductive Fault where
  /-- The data ends inside the character that starts at `index`. -/
  | incomplete (index : Nat)
  /-- The `length` bytes from `index` on start no character. -/
  | invalid (length index : Nat)
deriving DecidableEq, Repr

/-- The wording of a fault. -/
def Fault.message : Fault → String
  | .incomplete index => s!"incomplete utf-8 byte sequence from index {index}"
  | .invalid length index => s!"invalid utf-8 sequence of {length} bytes from index {index}"

/-- Whether a byte lies between two bounds. -/
def between (low high byte : UInt8) : Bool := low ≤ byte && byte ≤ high

/-- Which bytes may follow the first byte of a character, one class for each of them; none if
the byte starts no character. -/
def followers (first : UInt8) : Option (List (UInt8 → Bool)) :=
  let any := between 0x80 0xBF
  if first < 0x80 then some []
  else if between 0xC2 0xDF first then some [any]
  else if first = 0xE0 then some [between 0xA0 0xBF, any]
  else if first = 0xED then some [between 0x80 0x9F, any]
  else if between 0xE1 0xEF first then some [any, any]
  else if first = 0xF0 then some [between 0x90 0xBF, any, any]
  else if between 0xF1 0xF3 first then some [any, any, any]
  else if first = 0xF4 then some [between 0x80 0x8F, any, any]
  else none

/-- The fault of the character that starts at `index`, of which `seen` bytes were fine. -/
def characterFault (index seen : Nat) : List (UInt8 → Bool) → Bytes → Option Fault
  | [], _ => none
  | _ :: _, [] => some (.incomplete index)
  | allowed :: classes, byte :: rest =>
      if allowed byte then characterFault index (seen + 1) classes rest
      else some (.invalid seen index)

/-- The first fault of the bytes from `index` on. -/
def faultFrom (index : Nat) (bytes : Bytes) : Option Fault :=
  match bytes with
  | [] => none
  | first :: rest =>
      match followers first with
      | none => some (.invalid 1 index)
      | some classes =>
          match characterFault index 1 classes rest with
          | some fault => some fault
          | none => faultFrom (index + 1 + classes.length) (rest.drop classes.length)
termination_by bytes.length
decreasing_by simp only [List.length_cons, List.length_drop]; omega

/-- The bytes of a text. -/
def encode (text : String) : Bytes := text.toByteArray.toList

/-- The text with the given bytes, or the place where they stop being UTF-8. -/
def decode (bytes : Bytes) : Except Fault String :=
  match String.fromUTF8? bytes.toByteArray with
  | some text => .ok text
  | none => .error ((faultFrom 0 bytes).getD (.invalid 1 0))

end Garbling.Text
