import NodeAssembly.Bench
import NodeAssembly.CommandLine
import NodeAssembly.Instruction.Rehearsal
import NodeAssembly.Main
import NodeAssembly.Proofs.Bus.Delivery
import NodeAssembly.Session
import NodeAssembly.Proofs.Instruction.Footprint
import NodeAssembly.Proofs.Program.Growth
import NodeAssembly.Proofs.Program.Jumps
import NodeAssembly.Proofs.Program.Labels
import NodeAssembly.Proofs.Node.Steps
import NodeAssembly.Proofs.Node.ControlFlow
import NodeAssembly.Proofs.Node.Reach
import NodeAssembly.Proofs.Node.Usage
import NodeAssembly.Proofs.Node.Interference
import NodeAssembly.Proofs.Program.Construction
import NodeAssembly.Proofs.Program.Wiring
import NodeAssembly.Proofs.Text.Numeral
import NodeAssembly.Proofs.Program.Bindings
import NodeAssembly.Proofs.Program.Permanence
import NodeAssembly.Proofs.Program.Interchange
import NodeAssembly.Proofs.Node.References
import NodeAssembly.Proofs.Node.Confluence
import NodeAssembly.Proofs.Text.Quoted
import NodeAssembly.Proofs.Token.Spelling
import NodeAssembly.Proofs.Text.Tidy
import NodeAssembly.Proofs.Source.Rendering
import NodeAssembly.Proofs.Source.Reading
import NodeAssembly.Proofs.Source.Listing
import NodeAssembly.Proofs.Program.Resolution
import NodeAssembly.Proofs.Program.RoundTrip
import NodeAssembly.Proofs.Node.Listeners
import NodeAssembly.Proofs.Value.TextLimit
import NodeAssembly.Proofs.Node.Exclusion
import NodeAssembly.Proofs.Node.Diary
import NodeAssembly.Proofs.Node.RunOnce
import NodeAssembly.Proofs.Node.Progress
import NodeAssembly.Proofs.Node.Exhaustion
import NodeAssembly.Proofs.Node.Resemblance
import NodeAssembly.Proofs.Node.Pacing
import NodeAssembly.Proofs.Program.Declaring
import NodeAssembly.Proofs.Program.Meaning
import NodeAssembly.Proofs.Program.Naming
import NodeAssembly.Proofs.Source.Depth
import NodeAssembly.Proofs.Program.Layout
import NodeAssembly.Proofs.Program.Leftovers
import NodeAssembly.Proofs.Program.Placement
import NodeAssembly.Proofs.Source.Places
import NodeAssembly.Proofs.Program.Places
import NodeAssembly.Proofs.Token.Joining
import NodeAssembly.Proofs.Source.Comments
import NodeAssembly.Proofs.Program.Comments
import NodeAssembly.Proofs.Source.Lookahead
import NodeAssembly.Proofs.Program.Errors
import NodeAssembly.Proofs.Source.Branching
import NodeAssembly.Proofs.Program.Branching
import NodeAssembly.Proofs.Node.Logbook
import NodeAssembly.Proofs.Register.Ring
import NodeAssembly.Proofs.Node.Company
import NodeAssembly.Proofs.Instruction.Operands
import NodeAssembly.Proofs.Node.Stopping
import NodeAssembly.Proofs.Instruction.Increment
import NodeAssembly.Proofs.Register.Sparse
import NodeAssembly.Proofs.Value.Exactness
import NodeAssembly.Proofs.Value.Digits
import NodeAssembly.Proofs.Bus.Retraction
import NodeAssembly.Proofs.Instruction.Refusal
import NodeAssembly.Proofs.Value.Comparison
import NodeAssembly.Proofs.Value.Radix
import NodeAssembly.Proofs.Program.Casting
import NodeAssembly.Proofs.Register.Stream
import NodeAssembly.Proofs.Register.Counts
import NodeAssembly.Proofs.Token.Printing
import NodeAssembly.Proofs.Token.LongestMatch
import NodeAssembly.Proofs.Program.DollarNames
import NodeAssembly.Proofs.Node.Hearing
import NodeAssembly.Proofs.Node.Life
import NodeAssembly.Proofs.Node.Recount
