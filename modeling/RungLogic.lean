import RungLogic.Clock
import RungLogic.CommandLine
import RungLogic.CommandLine.Arguments
import RungLogic.Connection
import RungLogic.Counter
import RungLogic.Document.Entries
import RungLogic.Element
import RungLogic.Element.Create
import RungLogic.Element.Draft
import RungLogic.Error
import RungLogic.Fault
import RungLogic.Instruction
import RungLogic.Instruction.Document
import RungLogic.Instruction.Line
import RungLogic.Json.Reader
import RungLogic.Json.Writer
import RungLogic.Kind
import RungLogic.Main
import RungLogic.Network
import RungLogic.Network.Build
import RungLogic.Network.Document
import RungLogic.Network.Drawing
import RungLogic.Network.Edit
import RungLogic.Network.Trace
import RungLogic.Notice
import RungLogic.Number
import RungLogic.Number.Form
import RungLogic.Number.Reader
import RungLogic.Number.Shortest
import RungLogic.Operator
import RungLogic.Path
import RungLogic.Preset
import RungLogic.Runner
import RungLogic.Runner.Rehearsal
import RungLogic.Scan.Block
import RungLogic.Scan.Cycle
import RungLogic.Scan.Machine
import RungLogic.Scan.Memory
import RungLogic.Session
import RungLogic.Session.Entry
import RungLogic.Settings
import RungLogic.Signal
import RungLogic.Simulation
import RungLogic.Supply
import RungLogic.Table
import RungLogic.Text.Blank
import RungLogic.Text.Digit
import RungLogic.Text.Lines
import RungLogic.Text.Printable
import RungLogic.Text.Quoted
import RungLogic.Text.Uppercase
import RungLogic.Text.Word
import RungLogic.Timer
import RungLogic.Value
import RungLogic.Value.Sum
import RungLogic.Variable
import RungLogic.Workspace
import RungLogic.Proofs.Outcomes
import RungLogic.Proofs.Tables
import RungLogic.Proofs.Variables
import RungLogic.Proofs.Text.Breaks
import RungLogic.Proofs.Text.Runs
import RungLogic.Proofs.Text.Feeds
import RungLogic.Proofs.Json.Strings
import RungLogic.Proofs.Json.Numbers
import RungLogic.Proofs.Json.RoundTrip
import RungLogic.Proofs.Instruction.Canonical
import RungLogic.Proofs.Instruction.Lines
import RungLogic.Proofs.Network.Coherence
import RungLogic.Proofs.Network.Parts
import RungLogic.Proofs.Document.Messages
import RungLogic.Proofs.Network.Document
import RungLogic.Proofs.Network.Reading
import RungLogic.Proofs.Instruction.Document
import RungLogic.Proofs.Instruction.Reading
import RungLogic.Proofs.Element.Edit
import RungLogic.Proofs.Element.Change
import RungLogic.Proofs.Network.Changes
import RungLogic.Proofs.Network.Edit
import RungLogic.Proofs.Network.Commutation
import RungLogic.Proofs.Network.Reach
import RungLogic.Proofs.Network.Beside
import RungLogic.Proofs.Network.Components
import RungLogic.Proofs.Network.BreadthFirst
import RungLogic.Proofs.Scan.ReadLinks
import RungLogic.Proofs.Scan.Consistency
import RungLogic.Proofs.Scan.Loops
import RungLogic.Proofs.Scan.Recursion
import RungLogic.Proofs.Scan.CycleDetection
import RungLogic.Proofs.Scan.Repetition
import RungLogic.Proofs.Scan.Ideal
import RungLogic.Proofs.Scan.Order
import RungLogic.Proofs.Build.Chain
import RungLogic.Proofs.Build.RoundTrip
import RungLogic.Proofs.Build.Accumulator
import RungLogic.Proofs.Build.Meaning
import RungLogic.Proofs.Build.Execution
import RungLogic.Proofs.Build.Refinement
import RungLogic.Proofs.Build.Runs
import RungLogic.Proofs.Build.Documents
import RungLogic.Proofs.Workspace.Paths
import RungLogic.Proofs.Workspace.Files
import RungLogic.Proofs.CommandLine.Reports
import RungLogic.Proofs.CommandLine.Conversion
import RungLogic.Proofs.Simulation.Safety
import RungLogic.Proofs.Simulation.Order
import RungLogic.Proofs.Build.Matches
import RungLogic.Proofs.Build.Quantities
import RungLogic.Proofs.Build.Rebuild
import RungLogic.Proofs.Build.ForwardChain
import RungLogic.Proofs.Scan.Delays
import RungLogic.Proofs.Scan.Counts
import RungLogic.Proofs.Session.Reload
import RungLogic.Proofs.Session.Assignment
import RungLogic.Proofs.Session.Prompt
import RungLogic.Proofs.Presets
import RungLogic.Proofs.Session.Durations
import RungLogic.Proofs.Session.Repetition
import RungLogic.Proofs.Session.Defaults
import RungLogic.Proofs.Runner
import RungLogic.Proofs.Scan.Footprint
import RungLogic.Proofs.Simulation.Ownership
import RungLogic.Proofs.Simulation.Beside
import RungLogic.Proofs.Simulation.Redrawn
import RungLogic.Proofs.Scan.Operands
import RungLogic.Proofs.Scan.RestingTimers
import RungLogic.Proofs.Settings
import RungLogic.Proofs.Build.Rungs
import RungLogic.Proofs.Build.Layout
import RungLogic.Proofs.Drawing.Lines
import RungLogic.Proofs.Drawing.Dot
import RungLogic.Proofs.Drawing.Markup
import RungLogic.Proofs.Drawing.GraphML
import RungLogic.Proofs.Session.Safety
import RungLogic.Proofs.CommandLine.Escapes
