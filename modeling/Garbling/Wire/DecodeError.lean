import Garbling.Program.Basic
import Garbling.Text

/-!
# Decoding errors

The ways in which bytes fail to be the encoding of a value.
-/

namespace Garbling

/-- Why bytes could not be decoded. -/
inductive DecodeError where
  /-- The data ends before the value does. -/
  | endOfData
  /-- The data ends inside the bytes of a text. -/
  | endOfText
  | invalidBool (found : UInt8)
  | invalidTag (found : UInt8)
  /-- The number of an alternative is not below the number of alternatives. -/
  | invalidVariant (found : UInt32) (count : Nat)
  | invalidText (fault : Text.Fault)
  /-- The value is code, but no program. -/
  | invalidProgram (fault : ProgramFault)
deriving DecidableEq, Repr

/-- The wording of an error. -/
def DecodeError.message : DecodeError → String
  | .endOfData => "io error: unexpected end of file"
  | .endOfText => "io error: "
  | .invalidBool found => s!"invalid u8 while decoding bool, expected 0 or 1, found {found.toNat}"
  | .invalidTag found => s!"tag for enum is not valid, found {found.toNat}"
  | .invalidVariant found count =>
      s!"invalid value: integer `{found.toNat}`, expected variant index 0 <= i < {count}"
  | .invalidText fault => s!"string is not valid utf8: {fault.message}"
  | .invalidProgram fault => fault.message

end Garbling
