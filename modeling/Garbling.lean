import Garbling.Batch.Basic
import Garbling.Batch.Draft
import Garbling.Batch.Reader
import Garbling.Batch.Stream
import Garbling.Bits
import Garbling.Bytes
import Garbling.Curve.Edwards
import Garbling.Curve.Field
import Garbling.Curve.Ristretto
import Garbling.Error
import Garbling.HalfGate
import Garbling.Hash.Blake3
import Garbling.Label
import Garbling.Machine.Execution
import Garbling.Machine.Memory
import Garbling.Machine.Plain
import Garbling.Machine.Processor
import Garbling.Machine.RevealLog
import Garbling.Machine.Taint
import Garbling.Network.Chunks
import Garbling.Network.Connection
import Garbling.Network.Failure
import Garbling.Network.Interception
import Garbling.Network.Line
import Garbling.Network.Process
import Garbling.Network.Schedule
import Garbling.Network.Session
import Garbling.Program.Basic
import Garbling.Program.Instruction
import Garbling.Proofs.Acceptance
import Garbling.Proofs.Accounting
import Garbling.Proofs.Action
import Garbling.Proofs.AllOrNothing
import Garbling.Proofs.Answering
import Garbling.Proofs.AnyEvaluator
import Garbling.Proofs.Atomicity
import Garbling.Proofs.BaseTransfer
import Garbling.Proofs.Batches
import Garbling.Proofs.Bits
import Garbling.Proofs.BufferedFate
import Garbling.Proofs.BufferedRun
import Garbling.Proofs.BufferedSlice
import Garbling.Proofs.Calls
import Garbling.Proofs.Canonical
import Garbling.Proofs.CarryingOut
import Garbling.Proofs.Channels
import Garbling.Proofs.ChosenWords
import Garbling.Proofs.Circuits
import Garbling.Proofs.Contents
import Garbling.Proofs.ContinuousFate
import Garbling.Proofs.ContinuousRun
import Garbling.Proofs.ContinuousSlice
import Garbling.Proofs.Coupling
import Garbling.Proofs.Course
import Garbling.Proofs.Delivery
import Garbling.Proofs.Digits
import Garbling.Proofs.Duet
import Garbling.Proofs.Endings
import Garbling.Proofs.Evaluation
import Garbling.Proofs.Exponents
import Garbling.Proofs.Extension
import Garbling.Proofs.Failures
import Garbling.Proofs.FaithfulErrors
import Garbling.Proofs.Fate
import Garbling.Proofs.Faults
import Garbling.Proofs.Footprints
import Garbling.Proofs.Framing
import Garbling.Proofs.GateCalls
import Garbling.Proofs.HalfGate
import Garbling.Proofs.Handshakes
import Garbling.Proofs.HangingUp
import Garbling.Proofs.Hearing
import Garbling.Proofs.InRange
import Garbling.Proofs.InputLabels
import Garbling.Proofs.InputRounds
import Garbling.Proofs.Inspection
import Garbling.Proofs.Interleaving
import Garbling.Proofs.Listening
import Garbling.Proofs.Lockstep
import Garbling.Proofs.MemoryCells
import Garbling.Proofs.ModesAgree
import Garbling.Proofs.Noninterference
import Garbling.Proofs.Numbering
import Garbling.Proofs.OpenValues
import Garbling.Proofs.Openings
import Garbling.Proofs.Operations
import Garbling.Proofs.Orderly
import Garbling.Proofs.Presenting
import Garbling.Proofs.ProgramFailure
import Garbling.Proofs.Progress
import Garbling.Proofs.Reachable
import Garbling.Proofs.Reception
import Garbling.Proofs.Reference
import Garbling.Proofs.RefusedBatches
import Garbling.Proofs.RejectedCalls
import Garbling.Proofs.Relabeling
import Garbling.Proofs.Related
import Garbling.Proofs.Replays
import Garbling.Proofs.Restart
import Garbling.Proofs.Results
import Garbling.Proofs.RoundTrip
import Garbling.Proofs.Scripted
import Garbling.Proofs.SealedQueues
import Garbling.Proofs.Sending
import Garbling.Proofs.Setup
import Garbling.Proofs.Slice
import Garbling.Proofs.SliceSimulation
import Garbling.Proofs.Slicing
import Garbling.Proofs.Stores
import Garbling.Proofs.StreamedBatches
import Garbling.Proofs.Stretch
import Garbling.Proofs.Supply
import Garbling.Proofs.Together
import Garbling.Proofs.Trace
import Garbling.Proofs.Tracked
import Garbling.Proofs.TransferRounds
import Garbling.Proofs.Transparency
import Garbling.Proofs.Transposition
import Garbling.Proofs.Turns
import Garbling.Proofs.Utterances
import Garbling.Proofs.Validation
import Garbling.Proofs.Visits
import Garbling.Proofs.Waiting
import Garbling.Proofs.WireFormat
import Garbling.Random.ChaCha20
import Garbling.Replay.Batches
import Garbling.Replay.Store
import Garbling.Role.Evaluator
import Garbling.Role.Garbler
import Garbling.Role.Handshake
import Garbling.Role.Run
import Garbling.Role.Task
import Garbling.Role.Transcript
import Garbling.Settings
import Garbling.Suite.Basic
import Garbling.Suite.Standard
import Garbling.Text
import Garbling.Transfer.Base
import Garbling.Transfer.Extension
import Garbling.Transfer.InputLabels
import Garbling.Wire.DecodeError
import Garbling.Wire.Format
import Garbling.Wire.Messages
import Garbling.Wire.Program
import Garbling.Words
