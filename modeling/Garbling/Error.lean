import Garbling.Network.Failure
import Garbling.Settings

/-!
# Errors of a run

Everything that can end a run, by cause. A program that has to wait for a revealed value is
no error: the roles deal with it.
-/

namespace Garbling

/-- Why the execution of a program stopped short. -/
inductive ExecutionError where
  | uninitializedRegister (register : Register)
  | uninitializedClear (register : Register)
  | memoryOutOfBounds (address size : Nat)
  | uninitializedMemory (address : Nat)
  | missingGarblerInput
  | missingEvaluatorInput
deriving DecidableEq, Repr

/-- The wording of an error. -/
def ExecutionError.message : ExecutionError → String
  | .uninitializedRegister register => s!"secret register {register.toNat} is uninitialized"
  | .uninitializedClear register => s!"clear register {register.toNat} is uninitialized"
  | .memoryOutOfBounds address size =>
      s!"memory address {address} is out of bounds (memory size {size})"
  | .uninitializedMemory address => s!"memory cell {address} is uninitialized"
  | .missingGarblerInput => "the garbler has no input bit left"
  | .missingEvaluatorInput => "the evaluator has no input bit left"

/-- What is wrong with a message of an oblivious transfer that could be decoded. -/
inductive TransferFault where
  | columnLength
  | notAPoint
deriving DecidableEq, Repr

/-- The wording of a fault. -/
def TransferFault.message : TransferFault → String
  | .columnLength => "column length"
  | .notAPoint => "not a Ristretto point"

/-- A message or a call that the protocol does not allow at this point. -/
inductive Violation where
  | unexpectedTag (tag : UInt64)
  /-- The two halves of a batch pair have different numbers. -/
  | mismatchedBatchPair (gates masks : UInt64)
  | outOfOrderBatch (expected actual : UInt64)
  | unexpectedGateIndex (expected actual : UInt64)
  /-- The slice needs more than its batch holds. -/
  | batchExhausted
  /-- The slice is over before its batch is used up. -/
  | trailingBatchData (count : Nat)
  /-- The batches end before the program does. -/
  | unexpectedDone
  /-- The program ends before the batches do. -/
  | missingDone
  | trailingBatches (count : Nat)
  | transferSetupRepeated
  | transferNotSetUp
  | invalidTransferMessage (fault : TransferFault)
  | openingCountMismatch (expected actual : Nat)
  | missingInputLabels (expected actual : Nat)
deriving DecidableEq, Repr

/-- Lower-case hexadecimal digits after a mark. -/
def hexadecimal (value : UInt64) : String :=
  "0x" ++ String.ofList (Nat.toDigits 16 value.toNat)

/-- The wording of a violation. -/
def Violation.message : Violation → String
  | .unexpectedTag tag => s!"unexpected control tag {hexadecimal tag}"
  | .mismatchedBatchPair gates masks =>
      s!"gate batch {gates.toNat} is paired with mask batch {masks.toNat}"
  | .outOfOrderBatch expected actual =>
      s!"expected batch {expected.toNat}, got batch {actual.toNat}"
  | .unexpectedGateIndex expected actual =>
      s!"expected a batch starting at gate {expected.toNat}, got gate {actual.toNat}"
  | .batchExhausted => "the batch has no data left for the current slice"
  | .trailingBatchData count => s!"{count} unused gates, labels or masks are left in the batch"
  | .unexpectedDone => "the garbler finished before the program did"
  | .missingDone => "expected DONE after the program finished"
  | .trailingBatches count =>
      s!"{count} stored batches are left over after the program finished"
  | .transferSetupRepeated => "the OT extension was already set up"
  | .transferNotSetUp => "the OT extension is not set up"
  | .invalidTransferMessage fault => s!"invalid OT message: {fault.message}"
  | .openingCountMismatch expected actual => s!"expected {expected} opened values, got {actual}"
  | .missingInputLabels expected actual =>
      s!"expected {expected} evaluator input labels, got {actual}"

/-- Why a store of batches failed. -/
inductive StoreError where
  /-- The directory of the store cannot hold a file. -/
  | unusableDirectory
  /-- A stored batch does not read back. -/
  | unreadable (error : DecodeError)
  /-- Batches were taken out already, so none can be added. -/
  | sealed
deriving DecidableEq, Repr

/-- The wording of an error. -/
def StoreError.message : StoreError → String
  | .unusableDirectory => "temporary store file"
  | .unreadable error => s!"could not (de-)serialize batch: {error.message}"
  | .sealed => "the store is sealed after the first pop"

/-- Why a run ended without outputs. -/
inductive Error where
  | message (error : MessageError)
  | violation (breach : Violation)
  | settings (error : SettingsError)
  | program (fault : ProgramFault)
  | execution (error : ExecutionError)
  | store (error : StoreError)
deriving DecidableEq, Repr

/-- The wording of an error, which begins with its kind. -/
def Error.text : Error → String
  | .message error => s!"channel error: {error.message}"
  | .violation breach => s!"protocol violation: {breach.message}"
  | .settings error => s!"configuration error: {error.message}"
  | .program fault => s!"interpreter error: {fault.message}"
  | .execution error => s!"interpreter error: {error.message}"
  | .store error => s!"batch store error: {error.message}"

end Garbling
