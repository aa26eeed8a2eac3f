import PseudoAsm.Analysis.Edge
import PseudoAsm.Analysis.Report
import PseudoAsm.Analysis.ReportPrinter
import PseudoAsm.Analysis.Walk
import PseudoAsm.Command.Arguments
import PseudoAsm.Command.Batch
import PseudoAsm.Command.Inspection
import PseudoAsm.Command.Outcome
import PseudoAsm.Files.Source
import PseudoAsm.Files.Tree
import PseudoAsm.Instruction
import PseudoAsm.Instruction.Line
import PseudoAsm.InstructionSet
import PseudoAsm.Json.Reader
import PseudoAsm.Json.Writer
import PseudoAsm.Listing
import PseudoAsm.Log
import PseudoAsm.Machine.Basic
import PseudoAsm.Machine.Execution
import PseudoAsm.Machine.Operand
import PseudoAsm.Machine.Processor
import PseudoAsm.Machine.RegisterFile
import PseudoAsm.Machine.Run
import PseudoAsm.Machine.SettingsText
import PseudoAsm.Machine.Snapshot
import PseudoAsm.Machine.StatusWord
import PseudoAsm.Machine.Trap
import PseudoAsm.Main
import PseudoAsm.Proofs.Machine.Effect
import PseudoAsm.Proofs.Machine.Stepping
import PseudoAsm.Proofs.Machine.Traps
import PseudoAsm.Resolution
import PseudoAsm.Text.Alphabetic
import PseudoAsm.Text.Blank
import PseudoAsm.Text.Case
import PseudoAsm.Text.Column
import PseudoAsm.Text.Lowercase
import PseudoAsm.Text.Numeral
import PseudoAsm.Text.Numeric
import PseudoAsm.Text.Ranges
import PseudoAsm.Proofs.Resolution.Position
import PseudoAsm.Proofs.Resolution.Shift
import PseudoAsm.Proofs.Resolution.Bodywise
import PseudoAsm.Proofs.Resolution.Failure
import PseudoAsm.Proofs.Resolution.Relabeling
import PseudoAsm.Proofs.Machine.Control
import PseudoAsm.Proofs.Resolution.Symbolic
import PseudoAsm.Proofs.Resolution.Lockstep
import PseudoAsm.Proofs.Analysis.Walk
import PseudoAsm.Proofs.Analysis.Soundness
import PseudoAsm.Proofs.Line.Grammar
import PseudoAsm.Proofs.Text.Trimming
import PseudoAsm.Proofs.Text.Lowercase
import PseudoAsm.Proofs.Line.Rendering
import PseudoAsm.Proofs.Machine.Frame
import PseudoAsm.Proofs.Machine.Running
import PseudoAsm.Proofs.Machine.Output
import PseudoAsm.Proofs.Machine.Budget
import PseudoAsm.Proofs.Machine.Calls
import PseudoAsm.Proofs.Machine.Isolation
import PseudoAsm.Proofs.Machine.Reading
import PseudoAsm.Proofs.Machine.Registers
import PseudoAsm.Proofs.Machine.Diagnosis
import PseudoAsm.Proofs.Resolution.Confinement
import PseudoAsm.Proofs.Analysis.Unreachable
import PseudoAsm.Proofs.Analysis.Forward
import PseudoAsm.Proofs.Line.Plain
import PseudoAsm.Proofs.Interpretation
import PseudoAsm.Proofs.Text.ByteOrder
import PseudoAsm.Proofs.Files.Sources
import PseudoAsm.Proofs.Log
import PseudoAsm.Proofs.Command.Batch
import PseudoAsm.Proofs.Machine.Comparison
import PseudoAsm.Proofs.Machine.Arithmetic
import PseudoAsm.Proofs.Machine.Division
import PseudoAsm.Proofs.Analysis.Reachability
import PseudoAsm.Proofs.Machine.Halting
import PseudoAsm.Proofs.Line.Layout
import PseudoAsm.Proofs.Listing.Addresses
import PseudoAsm.Proofs.Listing.Transfers
import PseudoAsm.Proofs.Machine.Token
import PseudoAsm.Proofs.Machine.Moving
import PseudoAsm.Proofs.Machine.Words
import PseudoAsm.Proofs.Analysis.Offsets
import PseudoAsm.Proofs.Files.Directory
import PseudoAsm.Proofs.Command.Directories
import PseudoAsm.Proofs.Text.Identifier
import PseudoAsm.Proofs.Machine.Spelling
import PseudoAsm.Proofs.Files.Writing
import PseudoAsm.Proofs.Command.Inspection
import PseudoAsm.Proofs.Analysis.Worklist
import PseudoAsm.Proofs.Analysis.BreadthFirst
