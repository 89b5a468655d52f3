import ScpiScript.Main
import ScpiScript.Proofs.Instrument.Recording
import ScpiScript.Proofs.Instrument.WireText
import ScpiScript.Proofs.Instrument.Separation
import ScpiScript.Proofs.Source.Boundary
import ScpiScript.Proofs.Script.Action
import ScpiScript.Proofs.Script.Trace
import ScpiScript.Proofs.Script.Simulation
import ScpiScript.Proofs.Script.Indistinct
import ScpiScript.Proofs.Instrument.Compliance
import ScpiScript.Proofs.Script.DryRun
import ScpiScript.Proofs.Script.Nesting
import ScpiScript.Proofs.Script.Relocation
import ScpiScript.Proofs.Script.Inlining
import ScpiScript.Proofs.Text.Decoding
import ScpiScript.Proofs.Source.LineEnding
import ScpiScript.Proofs.Script.LineEnding
import ScpiScript.Proofs.Script.Fatal
import ScpiScript.Proofs.Script.Printing
import ScpiScript.Proofs.Instrument.Custody
import ScpiScript.Proofs.Script.LinkFailure
import ScpiScript.Proofs.Script.Custody
import ScpiScript.Proofs.Source.Comment
import ScpiScript.Proofs.Script.Abandonment
import ScpiScript.Proofs.Script.Exit
import ScpiScript.Proofs.CommandLine.Exit
import ScpiScript.Proofs.Text.RoundTrip
import ScpiScript.Proofs.Lua.Memory
import ScpiScript.Proofs.Lua.Scope
import ScpiScript.Proofs.Lua.MethodCall
import ScpiScript.Proofs.Lua.Sequence
import ScpiScript.Proofs.Lua.Sending
import ScpiScript.Proofs.Script.Binding
import ScpiScript.Proofs.Source.FileTree
import ScpiScript.Proofs.Source.Continuation
import ScpiScript.Proofs.Script.ClosedSession
import ScpiScript.Proofs.CommandLine.Arguments
import ScpiScript.Proofs.CommandLine.Outcome
import ScpiScript.Proofs.Script.LineByLine
import ScpiScript.Proofs.Script.Termination
import ScpiScript.Proofs.Reference.Occurrence
import ScpiScript.Proofs.Reference.Substitution
import ScpiScript.Proofs.Reference.Tail
import ScpiScript.Proofs.Source.Extent
import ScpiScript.Proofs.Script.CodeBlock
import ScpiScript.Proofs.Decimal.Numeral
import ScpiScript.Proofs.Block.LengthPrefix
import ScpiScript.Proofs.Block.Parameter
import ScpiScript.Proofs.Block.Sample
import ScpiScript.Proofs.Text.WellFormed
import ScpiScript.Proofs.Source.Accounting
import ScpiScript.Proofs.Settings.Loading
import ScpiScript.Proofs.Settings.Quoting
import ScpiScript.Proofs.CommandLine.Settings
import ScpiScript.Proofs.CommandLine.Rendering
import ScpiScript.Proofs.Link.Address
import ScpiScript.Proofs.Lua.Vector
import ScpiScript.Proofs.Lua.Keys
import ScpiScript.Proofs.Lua.NumberRow
import ScpiScript.Proofs.Binary.Rounding
import ScpiScript.Proofs.Decimal.Shortest
import ScpiScript.Proofs.Scope.WholeNumber
import ScpiScript.Proofs.Lua.Integer
import ScpiScript.Proofs.Lua.Diagnostic
import ScpiScript.Proofs.Binary.Value
import ScpiScript.Proofs.Decimal.Plain
import ScpiScript.Proofs.Scope.NumberText
import ScpiScript.Proofs.Scope.VectorText
import ScpiScript.Proofs.Source.Part
import ScpiScript.Proofs.CommandLine.StandardInput
