import TraceJit.Cli.Run
import TraceJit.Display.Progress
import TraceJit.Main
import TraceJit.Timing.Stopwatch
import TraceJit.Proofs.Bytecode.Walk
import TraceJit.Proofs.Graph.View
import TraceJit.Proofs.Graph.Edit
import TraceJit.Proofs.Graph.Cut
import TraceJit.Proofs.Graph.Marks
import TraceJit.Proofs.Graph.MethodScan
import TraceJit.Proofs.Graph.MethodSplit
import TraceJit.Proofs.Graph.MethodLeaders
import TraceJit.Proofs.Graph.MethodLink
import TraceJit.Proofs.Graph.MethodGraph
import TraceJit.Proofs.Graph.MethodOutcome
import TraceJit.Proofs.Graph.MethodBlocks
import TraceJit.Proofs.Graph.TraceDecode
import TraceJit.Proofs.Graph.TraceLink
import TraceJit.Proofs.Graph.TraceGraph
import TraceJit.Proofs.Graph.TraceCode
import TraceJit.Proofs.Graph.TraceEdges
import TraceJit.Proofs.Graph.Validate
import TraceJit.Proofs.Graph.TraceEnds
import TraceJit.Proofs.Graph.SideExits
import TraceJit.Proofs.Graph.Numbers
import TraceJit.Proofs.Graph.Verbosity
import TraceJit.Proofs.Graph.Reports
import TraceJit.Proofs.Codegen.Assembler
import TraceJit.Proofs.Codegen.CodeCache
import TraceJit.Proofs.Compiler.Call
import TraceJit.Proofs.Compiler.Abort
import TraceJit.Proofs.Compiler.Retry
import TraceJit.Proofs.Compiler.LookupCache
import TraceJit.Proofs.Compiler.Atomic
import TraceJit.Proofs.Compiler.Crew
import TraceJit.Proofs.Compiler.History
import TraceJit.Proofs.Compiler.Counters
import TraceJit.Proofs.Compiler.Balance
import TraceJit.Proofs.Program.Key
import TraceJit.Proofs.Program.Image
import TraceJit.Proofs.Compiler.Lookup
import TraceJit.Proofs.Program.WellFormed
import TraceJit.Proofs.Compiler.Verbosity
import TraceJit.Proofs.Graph.FrontEnds
import TraceJit.Proofs.Codegen.Lowering
import TraceJit.Proofs.Codegen.TraceSize
import TraceJit.Proofs.Compiler.GivingUp
import TraceJit.Proofs.Arena
import TraceJit.Proofs.Compiler.Batch
import TraceJit.Proofs.Display.Progress
import TraceJit.Proofs.Files
import TraceJit.Proofs.MessagePack.RoundTrip
import TraceJit.Proofs.MessagePack.Faithful
import TraceJit.Proofs.Log.RoundTrip
import TraceJit.Proofs.Events.Nesting
import TraceJit.Proofs.Compiler.Nesting
import TraceJit.Proofs.Bytecode.Payload
import TraceJit.Proofs.Graph.Accepted
import TraceJit.Proofs.Graph.Exits
import TraceJit.Proofs.Codegen.CostModel
import TraceJit.Proofs.Codegen.Encoding
import TraceJit.Proofs.Codegen.ReadRange
import TraceJit.Proofs.Graph.Extension
import TraceJit.Proofs.Toml.Record
import TraceJit.Proofs.Toml.Document
import TraceJit.Proofs.Toml.Statement
import TraceJit.Proofs.Compiler.SettingsFile
import TraceJit.Proofs.Program.Placement
import TraceJit.Proofs.Bytecode.CodeText
import TraceJit.Proofs.Events.Ring
import TraceJit.Proofs.Graph.WellLinked
import TraceJit.Proofs.Bytecode.CodeGrammar
import TraceJit.Proofs.Graph.Loops
