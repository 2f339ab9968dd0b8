import TapeLang.Block
import TapeLang.Cell
import TapeLang.CommandLine.Arguments
import TapeLang.CommandLine.Basic
import TapeLang.CommandLine.Build
import TapeLang.CommandLine.Source
import TapeLang.CommandLine.Files
import TapeLang.CommandLine.Path
import TapeLang.CommandLine.Prompt
import TapeLang.CommandLine.Run
import TapeLang.Compile
import TapeLang.Config
import TapeLang.Console
import TapeLang.Console.Buffered
import TapeLang.Console.Fragile
import TapeLang.Console.Input
import TapeLang.Console.Requests
import TapeLang.Console.Streams
import TapeLang.Report
import TapeLang.Debugger.Basic
import TapeLang.Debugger.Calls
import TapeLang.Diagnostic
import TapeLang.Duration
import TapeLang.Fault
import TapeLang.Generation.Basic
import TapeLang.Generation.Plan
import TapeLang.Generation.Sink
import TapeLang.Instruction
import TapeLang.Interpreter
import TapeLang.Journal
import TapeLang.Lexeme
import TapeLang.Machine
import TapeLang.Main
import TapeLang.Number.Binary
import TapeLang.Number.Decimal
import TapeLang.Program
import TapeLang.Proofs.Coalescing
import TapeLang.Proofs.Comparison
import TapeLang.Proofs.Debugging
import TapeLang.Proofs.Endings
import TapeLang.Proofs.Folding
import TapeLang.Proofs.Jumps
import TapeLang.Proofs.Layout
import TapeLang.Proofs.Optimization
import TapeLang.Proofs.Rewriting
import TapeLang.Proofs.Run
import TapeLang.Proofs.Scan
import TapeLang.Proofs.Spelling
import TapeLang.Proofs.Structured
import TapeLang.Proofs.Tape
import TapeLang.Session
import TapeLang.Settings.Decode
import TapeLang.Settings.Encode
import TapeLang.Settings.Reader
import TapeLang.Settings.Value
import TapeLang.Tape
import TapeLang.Target
import TapeLang.Target.C
import TapeLang.Target.Python
import TapeLang.Target.Rust
import TapeLang.Text.Basic
import TapeLang.Text.Hidden
import TapeLang.Text.Width
import TapeLang.Proofs.Nesting
import TapeLang.Proofs.Brackets
import TapeLang.Proofs.LoopTree
import TapeLang.Proofs.Interaction
import TapeLang.Proofs.Feeding
import TapeLang.Proofs.Publication
import TapeLang.Proofs.StateDiagram
import TapeLang.Proofs.Acts
import TapeLang.Proofs.Bookkeeping
import TapeLang.Proofs.FailedStarts
import TapeLang.Proofs.LookAlikes
import TapeLang.Proofs.Sessions
import TapeLang.Proofs.Isolation
import TapeLang.Proofs.Emission
import TapeLang.Proofs.Deltas
import TapeLang.Proofs.Statements
import TapeLang.Proofs.Readback
import TapeLang.Proofs.Lockstep
import TapeLang.Proofs.Policies
import TapeLang.Proofs.Widths
import TapeLang.Proofs.Continuing
import TapeLang.Proofs.Killing
import TapeLang.Proofs.Commands
import TapeLang.Proofs.Composition
import TapeLang.Proofs.PlainCode
import TapeLang.Proofs.Batches
import TapeLang.Proofs.Delivery
import TapeLang.Proofs.Segments
import TapeLang.Proofs.Nearest
import TapeLang.Proofs.Enlargement
import TapeLang.Proofs.Merging
import TapeLang.Proofs.Queueing
import TapeLang.Proofs.Diagnosis
import TapeLang.Proofs.Listing
import TapeLang.Proofs.Seams
import TapeLang.Proofs.Throttle
import TapeLang.Proofs.NetEffect
