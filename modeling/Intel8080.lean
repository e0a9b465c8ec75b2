import Intel8080.CommandLine.Directory
import Intel8080.CommandLine.Program
import Intel8080.Debugger.Layout
import Intel8080.Machine.Description
import Intel8080.Main
import Intel8080.Proofs.Arithmetic.BinaryAddition
import Intel8080.Proofs.Arithmetic.DecimalAddition
import Intel8080.Proofs.Machine.ControlTransfer
import Intel8080.Proofs.Machine.Course
import Intel8080.Proofs.Machine.RunLength
import Intel8080.Proofs.Machine.TrappedTransfer
import Intel8080.Proofs.Text.Pieces
import Intel8080.Proofs.Fault.Faultless
import Intel8080.Proofs.Snapshot
import Intel8080.Proofs.Listing.StraightLine
import Intel8080.Proofs.CommandLine.StepLimit
import Intel8080.Proofs.CommandLine.Tracing
import Intel8080.Proofs.Machine.WordStack
import Intel8080.Proofs.Machine.Loading
import Intel8080.Proofs.Service.CallReturn
import Intel8080.Proofs.Machine.ReportLedger
import Intel8080.Proofs.Address
import Intel8080.Proofs.RunConfig.Reading
import Intel8080.Proofs.CommandLine.Precedence
import Intel8080.Proofs.Debugger.CodeView
import Intel8080.Proofs.Arithmetic.Shifts
import Intel8080.Proofs.Service.ConsoleOutput
import Intel8080.Proofs.Debugger.MemoryPane
import Intel8080.Proofs.Assembly.Reading
import Intel8080.Proofs.Machine.Twins
