import Garbling.Wire.Format

/-!
# The format of programs

A program is written as its instructions and the size of its memory. Reading validates the
code again, so whatever is read is a program.
-/

namespace Garbling.Layout

variable (layout : Layout)

/-- The format of a list of registers. -/
def registers : Format (List Register) := layout.list layout.word64

/-- The fields of an instruction that are words, after the number of the alternative. -/
def alternative (number : UInt32) (fields : List UInt64) : Bytes :=
  layout.word32.encode number ++ fields.flatMap layout.word64.encode

/-- The format of instructions. -/
def instruction : Format Instruction where
  encode
    | .garblerInput dst => layout.alternative 0 [dst]
    | .evaluatorInput dst => layout.alternative 1 [dst]
    | .xor dst lhs rhs => layout.alternative 2 [dst, lhs, rhs]
    | .and dst lhs rhs => layout.alternative 3 [dst, lhs, rhs]
    | .not dst src => layout.alternative 4 [dst, src]
    | .reveal dst src => layout.alternative 5 [dst] ++ layout.registers.encode src
    | .output src => layout.alternative 6 [] ++ layout.registers.encode src
    | .constant dst value => layout.alternative 7 [dst, value]
    | .store src base offset => layout.alternative 8 [src, base, offset]
    | .load dst base offset => layout.alternative 9 [dst, base, offset]
    | .jumpIfZero condition target => layout.alternative 10 [condition, target]
    | .jump target => layout.alternative 11 [target]
  decode := do
    let word := layout.word64.decode
    match ← layout.variant 12 with
    | 0 => return .garblerInput (← word)
    | 1 => return .evaluatorInput (← word)
    | 2 => return .xor (← word) (← word) (← word)
    | 3 => return .and (← word) (← word) (← word)
    | 4 => return .not (← word) (← word)
    | 5 => return .reveal (← word) (← layout.registers.decode)
    | 6 => return .output (← layout.registers.decode)
    | 7 => return .constant (← word) (← word)
    | 8 => return .store (← word) (← word) (← word)
    | 9 => return .load (← word) (← word) (← word)
    | 10 => return .jumpIfZero (← word) (← word)
    | 11 => return .jump (← word)

/-- The format of code that need not be a program. -/
def code : Format Code :=
  ((layout.list layout.instruction).pair layout.word64).map
    (fun (instructions, memorySize) => ⟨instructions.toArray, memorySize⟩)
    fun code => (code.instructions.toList, code.memorySize)

/-- The format of programs. -/
def program : Format Program :=
  layout.code.mapChecked
    (fun code => (Program.ofCode code).mapError .invalidProgram)
    Program.toCode

end Garbling.Layout
