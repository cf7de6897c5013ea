/-!
# Instructions

A program computes on secret registers, which hold wires, and on clear registers, which hold
64-bit values that both parties know or will know. Lists of wires give a value with its least
significant bit first.
-/

namespace Garbling

/-- The number of a secret or of a clear register. -/
abbrev Register := UInt64

/-- One instruction of a program. -/
inductive Instruction where
  /-- Reads the next input bit of the garbler. -/
  | garblerInput (dst : Register)
  /-- Reads the next input bit of the evaluator. -/
  | evaluatorInput (dst : Register)
  /-- Exclusive or of two wires. -/
  | xor (dst lhs rhs : Register)
  /-- Conjunction of two wires. -/
  | and (dst lhs rhs : Register)
  /-- Negation of a wire. -/
  | not (dst src : Register)
  /-- Reveals a value to both parties and keeps it in a clear register. -/
  | reveal (dst : Register) (src : List Register)
  /-- Reveals a value to the evaluator only. -/
  | output (src : List Register)
  /-- Puts a public constant into a clear register. -/
  | constant (dst : Register) (value : UInt64)
  /-- Stores a wire at the sum of `base` and the value of a clear register. -/
  | store (src : Register) (base : UInt64) (offset : Register)
  /-- Loads a wire from the sum of `base` and the value of a clear register. -/
  | load (dst : Register) (base : UInt64) (offset : Register)
  /-- Jumps if the value of a clear register is zero. -/
  | jumpIfZero (condition : Register) (target : UInt64)
  /-- Jumps. -/
  | jump (target : UInt64)
deriving DecidableEq, Repr

namespace Instruction

/-- The secret registers that an instruction mentions. -/
def secrets : Instruction → List Register
  | .garblerInput dst | .evaluatorInput dst => [dst]
  | .xor dst lhs rhs | .and dst lhs rhs => [dst, lhs, rhs]
  | .not dst src => [dst, src]
  | .reveal _ src | .output src => src
  | .store src _ _ => [src]
  | .load dst _ _ => [dst]
  | .constant .. | .jumpIfZero .. | .jump _ => []

/-- The clear registers that an instruction mentions. -/
def clears : Instruction → List Register
  | .reveal dst _ | .constant dst _ => [dst]
  | .store _ _ offset | .load _ _ offset => [offset]
  | .jumpIfZero condition _ => [condition]
  | _ => []

/-- The number of wires that an instruction reveals as one value. -/
def width : Instruction → Nat
  | .reveal _ src | .output src => src.length
  | _ => 0

/-- Where an instruction may jump to. -/
def target? : Instruction → Option UInt64
  | .jumpIfZero _ target | .jump target => some target
  | _ => none

end Instruction

end Garbling
