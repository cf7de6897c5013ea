import Garbling.Program.Instruction

/-!
# Programs

A program is code that has passed validation: no jump leads past the end, no revealed value
is wider than 64 bits, and register numbers are small. The numbers of registers that a
program needs follow from its instructions.
-/

namespace Garbling

/-- The greatest number of wires that are revealed as one value. -/
def maxRevealWidth : Nat := 64

/-- Register numbers are below this bound. -/
def maxRegisters : Nat := 1 <<< 24

/-- Why code is no program. Each fault names the instruction that shows it. -/
inductive ProgramFault where
  | invalidJump (instruction : Nat) (target : UInt64)
  | registerOutOfRange (instruction : Nat) (register : Register)
  | revealTooWide (instruction : Nat) (width : Nat)
deriving DecidableEq, Repr

/-- The wording of a fault. -/
def ProgramFault.message : ProgramFault → String
  | .invalidJump instruction target =>
      s!"instruction {instruction} jumps to {target.toNat}, past the end of the program"
  | .registerOutOfRange instruction register =>
      s!"instruction {instruction} uses register {register.toNat} (at most {maxRegisters} registers)"
  | .revealTooWide instruction width =>
      s!"instruction {instruction} reveals {width} wires (at most {maxRevealWidth})"

/-- Instructions and the number of memory cells that they address. -/
structure Code where
  instructions : Array Instruction
  memorySize : UInt64
deriving DecidableEq

namespace Instruction

/-- The largest of some registers, if it is out of range. -/
def registerOutOfRange? (registers : List Register) : Option Register :=
  registers.max?.filter fun largest => maxRegisters ≤ largest.toNat

/-- The first fault of the instruction at `index` in code of the given length. -/
def fault? (length index : Nat) (instruction : Instruction) : Option ProgramFault :=
  if maxRevealWidth < instruction.width then
    some (.revealTooWide index instruction.width)
  else if let some target := instruction.target?.filter (length < ·.toNat) then
    some (.invalidJump index target)
  else if let some register := registerOutOfRange? instruction.secrets then
    some (.registerOutOfRange index register)
  else if let some register := registerOutOfRange? instruction.clears then
    some (.registerOutOfRange index register)
  else none

end Instruction

/-- The least number above all the given registers. -/
def registerBound (registers : List Register) : Nat :=
  registers.foldl (fun bound register => max bound (register.toNat + 1)) 0

namespace Code

/-- The fault of the first faulty instruction. -/
def fault? (code : Code) : Option ProgramFault :=
  code.instructions.toList.zipIdx.findSome? fun (instruction, index) =>
    instruction.fault? code.instructions.size index

/-- The number of secret registers that the code needs. -/
def secretRegisters (code : Code) : Nat :=
  registerBound (code.instructions.toList.flatMap Instruction.secrets)

/-- The number of clear registers that the code needs. -/
def clearRegisters (code : Code) : Nat :=
  registerBound (code.instructions.toList.flatMap Instruction.clears)

end Code

/-- Code without a fault. -/
structure Program extends Code where
  faultless : toCode.fault? = none
deriving DecidableEq

/-- The program with the given code, or the first fault of the code. -/
def Program.ofCode (code : Code) : Except ProgramFault Program :=
  match faultless : code.fault? with
  | none => .ok ⟨code, faultless⟩
  | some fault => .error fault

end Garbling
