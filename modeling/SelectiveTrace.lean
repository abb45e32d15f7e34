import SelectiveTrace.Bindings
import SelectiveTrace.CallGraph.Artifact
import SelectiveTrace.CallGraph.Basic
import SelectiveTrace.CallGraph.Tree
import SelectiveTrace.CommandLine.Arguments
import SelectiveTrace.CommandLine.Outcome
import SelectiveTrace.CommandLine.Run
import SelectiveTrace.Config
import SelectiveTrace.Config.Source
import SelectiveTrace.Decimal.Shortest
import SelectiveTrace.Disk
import SelectiveTrace.Error
import SelectiveTrace.Format.Document
import SelectiveTrace.Format.Json
import SelectiveTrace.Format.Toml
import SelectiveTrace.Format.Toml.Scalar
import SelectiveTrace.Format.Toml.Section
import SelectiveTrace.Grammar.Expression
import SelectiveTrace.Grammar.Literal
import SelectiveTrace.Grammar.Pattern
import SelectiveTrace.Grammar.Reader
import SelectiveTrace.Grammar.Statement
import SelectiveTrace.History.Probe
import SelectiveTrace.History.Report
import SelectiveTrace.History.Request
import SelectiveTrace.History.Tracer
import SelectiveTrace.Host.Frame
import SelectiveTrace.Host.Machine
import SelectiveTrace.Main
import SelectiveTrace.Namespace
import SelectiveTrace.Path
import SelectiveTrace.Program
import SelectiveTrace.Render
import SelectiveTrace.Scope.Index
import SelectiveTrace.Scope.Query
import SelectiveTrace.Scope.Span
import SelectiveTrace.Scope.Tree
import SelectiveTrace.Script.Hook
import SelectiveTrace.Script.Run
import SelectiveTrace.Script.Scene
import SelectiveTrace.Script.Step
import SelectiveTrace.Sink
import SelectiveTrace.SourceCache
import SelectiveTrace.Surroundings
import SelectiveTrace.Table
import SelectiveTrace.Text.Blank
import SelectiveTrace.Text.Elapsed
import SelectiveTrace.Text.Identifier
import SelectiveTrace.Text.Natural
import SelectiveTrace.Text.Quoted
import SelectiveTrace.Text.Shorten
import SelectiveTrace.Text.Utf8
import SelectiveTrace.Tracer.Basic
import SelectiveTrace.Tracer.Decision
import SelectiveTrace.Tracer.Rendering
import SelectiveTrace.Tracer.Session
import SelectiveTrace.Value.Basic
import SelectiveTrace.Value.Description
import SelectiveTrace.Value.Repr
import SelectiveTrace.Watch
import SelectiveTrace.Proofs.Host.Discipline
import SelectiveTrace.Proofs.Host.Turn
import SelectiveTrace.Proofs.Tracer.Showing
import SelectiveTrace.Proofs.Tracer.Verdict
import SelectiveTrace.Proofs.CallGraph.Forest
import SelectiveTrace.Proofs.CallGraph.Telling
import SelectiveTrace.Proofs.CallGraph.Growth
import SelectiveTrace.Proofs.Tracer.Distance
import SelectiveTrace.Proofs.Tracer.Written
import SelectiveTrace.Proofs.Host.Hearing
import SelectiveTrace.Proofs.Host.Playing
import SelectiveTrace.Proofs.History.Inspected
import SelectiveTrace.Proofs.Tracer.Region
import SelectiveTrace.Proofs.CallGraph.Observed
import SelectiveTrace.Proofs.CallGraph.Visits
import SelectiveTrace.Proofs.CallGraph.Records
import SelectiveTrace.Proofs.CallGraph.Method
import SelectiveTrace.Proofs.CallGraph.Report
import SelectiveTrace.Proofs.Host.Reporting
import SelectiveTrace.Proofs.Tracer.Memory
import SelectiveTrace.Proofs.Tracer.Progress
import SelectiveTrace.Proofs.Tracer.Inheritance
import SelectiveTrace.Proofs.Tracer.Handling
import SelectiveTrace.Proofs.Tracer.Upkeep
import SelectiveTrace.Proofs.Tracer.Attention
import SelectiveTrace.Proofs.Tracer.Mishap
import SelectiveTrace.Proofs.Host.Fleet
import SelectiveTrace.Proofs.Tracer.Stray
import SelectiveTrace.Proofs.Host.Bookkeeping
import SelectiveTrace.Proofs.Host.WellMade
import SelectiveTrace.Proofs.Tracer.Display
import SelectiveTrace.Proofs.Tracer.Deltas
import SelectiveTrace.Proofs.Sources.Apart
import SelectiveTrace.Proofs.Sources.Coherent
import SelectiveTrace.Proofs.Tracer.Threads
import SelectiveTrace.Proofs.Host.Sharing
import SelectiveTrace.Proofs.Tracer.Modes
import SelectiveTrace.Proofs.CallGraph.Openings
import SelectiveTrace.Proofs.Host.Protocol
import SelectiveTrace.Proofs.Host.Continuing
import SelectiveTrace.Proofs.History.Forgotten
import SelectiveTrace.Proofs.History.Agreement
import SelectiveTrace.Proofs.Script.Abreast
import SelectiveTrace.Proofs.History.Judgement
import SelectiveTrace.Proofs.Grammar.Reading
import SelectiveTrace.Proofs.Grammar.Expressions
import SelectiveTrace.Proofs.Grammar.Patterns
import SelectiveTrace.Proofs.Grammar.Statements
import SelectiveTrace.Proofs.Format.Json
import SelectiveTrace.Proofs.Scope.Index
import SelectiveTrace.Proofs.CommandLine.Arguments
import SelectiveTrace.Proofs.Scope.Wire
import SelectiveTrace.Proofs.Scope.Resolvers
import SelectiveTrace.Proofs.Value.Distinct
import SelectiveTrace.Proofs.Tracer.Visible
import SelectiveTrace.Proofs.Script.Upheld
import SelectiveTrace.Proofs.Script.Restored
import SelectiveTrace.Proofs.CallGraph.Artifact
import SelectiveTrace.Proofs.Host.Hooks
import SelectiveTrace.Proofs.Host.Unaffected
import SelectiveTrace.Proofs.Scope.Tables
import SelectiveTrace.Proofs.Scope.Innermost
import SelectiveTrace.Proofs.History.Credited
import SelectiveTrace.Proofs.History.Global
import SelectiveTrace.Proofs.History.Looped
import SelectiveTrace.Proofs.Tracer.Courses
import SelectiveTrace.Proofs.Tracer.Counted
import SelectiveTrace.Proofs.Host.Stale
import SelectiveTrace.Proofs.Script.Moves
import SelectiveTrace.Proofs.Script.Tended
import SelectiveTrace.Proofs.Script.Blocks
import SelectiveTrace.Proofs.Script.Leavings
import SelectiveTrace.Proofs.Host.Silenced
import SelectiveTrace.Proofs.Tracer.Following
import SelectiveTrace.Proofs.Tracer.Levels
import SelectiveTrace.Proofs.Script.Parallel
import SelectiveTrace.Proofs.Script.Watching
import SelectiveTrace.Proofs.Script.Depths
import SelectiveTrace.Proofs.Host.Respelled
import SelectiveTrace.Proofs.Tracer.Spelling
import SelectiveTrace.Proofs.Tracer.Overlooked
import SelectiveTrace.Proofs.CallGraph.Uses
import SelectiveTrace.Proofs.Host.Globals
import SelectiveTrace.Proofs.Value.Addresses
import SelectiveTrace.Proofs.Tracer.Labels
import SelectiveTrace.Proofs.Value.Shortened
import SelectiveTrace.Proofs.CallGraph.Drawn
import SelectiveTrace.Proofs.Sources.Recency
import SelectiveTrace.Proofs.Tracer.Decorated
import SelectiveTrace.Proofs.Host.Lineage
import SelectiveTrace.Proofs.History.Collapsed
import SelectiveTrace.Proofs.Sink.Overwriting
