import RegisterMachine.BindingTable
import RegisterMachine.Deduction
import RegisterMachine.ErrorDerivation.Expansion
import RegisterMachine.ErrorDerivation.Item
import RegisterMachine.ErrorDerivation.Printer
import RegisterMachine.Instruction
import RegisterMachine.Log.Console
import RegisterMachine.Log.Timestamp
import RegisterMachine.Logged
import RegisterMachine.Machine
import RegisterMachine.Operation
import RegisterMachine.Proofs.BindingTable.History
import RegisterMachine.Proofs.BindingTable.Inclusion
import RegisterMachine.Proofs.BindingTable.Listing
import RegisterMachine.Proofs.CheckedArithmetic
import RegisterMachine.Proofs.Client
import RegisterMachine.Proofs.Deduction.Ambiguity
import RegisterMachine.Proofs.Deduction.Contradiction
import RegisterMachine.Proofs.Deduction.Elimination
import RegisterMachine.Proofs.Deduction.GroundTruth
import RegisterMachine.Proofs.Deduction.History
import RegisterMachine.Proofs.Deduction.Identification
import RegisterMachine.Proofs.Deduction.Observation
import RegisterMachine.Proofs.Deduction.PassingOver
import RegisterMachine.Proofs.Deduction.Propagation
import RegisterMachine.Proofs.Deduction.Renaming
import RegisterMachine.Proofs.Deduction.Settling
import RegisterMachine.Proofs.Deduction.Visits
import RegisterMachine.Proofs.ErrorDerivation.Acceptance
import RegisterMachine.Proofs.ErrorDerivation.Expansion
import RegisterMachine.Proofs.ErrorDerivation.Format
import RegisterMachine.Proofs.ErrorDerivation.Hygiene
import RegisterMachine.Proofs.ErrorDerivation.Naming
import RegisterMachine.Proofs.ErrorDerivation.Placeholder
import RegisterMachine.Proofs.ErrorDerivation.Replacement
import RegisterMachine.Proofs.Instruction.Operands
import RegisterMachine.Proofs.Instruction.Table
import RegisterMachine.Proofs.Log.Calendar
import RegisterMachine.Proofs.Log.Console
import RegisterMachine.Proofs.Log.Gregorian
import RegisterMachine.Proofs.Log.Timestamp
import RegisterMachine.Proofs.Logged
import RegisterMachine.Proofs.Machine.Checkpointed
import RegisterMachine.Proofs.Machine.Command
import RegisterMachine.Proofs.Machine.Executions
import RegisterMachine.Proofs.Machine.Following
import RegisterMachine.Proofs.Machine.Halting
import RegisterMachine.Proofs.Machine.Indexing
import RegisterMachine.Proofs.Machine.Monitor
import RegisterMachine.Proofs.Machine.Moves
import RegisterMachine.Proofs.Machine.Reached
import RegisterMachine.Proofs.Machine.Recurrence
import RegisterMachine.Proofs.Machine.RegisterRenaming
import RegisterMachine.Proofs.Machine.Session
import RegisterMachine.Proofs.Machine.StraightLine
import RegisterMachine.Proofs.Machine.Trace
import RegisterMachine.Proofs.Machine.TraceText
import RegisterMachine.Proofs.Machine.Trajectory
import RegisterMachine.Proofs.Machine.Unwatched
import RegisterMachine.Proofs.OperationSet
import RegisterMachine.Proofs.PlainRun
import RegisterMachine.Proofs.PlainRun.FirstOffence
import RegisterMachine.Proofs.PlainRun.Reordering
import RegisterMachine.Proofs.RegisterRenaming
import RegisterMachine.Proofs.Renaming
import RegisterMachine.Proofs.Sample
import RegisterMachine.Proofs.Text
import RegisterMachine.RegisterFile
import RegisterMachine.Sample
import RegisterMachine.Text
