import MutationTesting.Class.Artifact
import MutationTesting.Class.Basic
import MutationTesting.Class.Descriptor
import MutationTesting.Class.Instruction
import MutationTesting.Class.Listing
import MutationTesting.Class.Location
import MutationTesting.Class.Opcode
import MutationTesting.CommandLine.Arguments
import MutationTesting.CommandLine.Execution
import MutationTesting.CommandLine.Report
import MutationTesting.CommandLine.Request
import MutationTesting.Coverage.Decoder
import MutationTesting.Coverage.ExecutionData
import MutationTesting.Coverage.Ingest
import MutationTesting.Coverage.Store
import MutationTesting.Decimal.Binary
import MutationTesting.Decimal.Digits
import MutationTesting.Decimal.Printed
import MutationTesting.Decimal.Shortest
import MutationTesting.Device.Configuration
import MutationTesting.Device.TestRun
import MutationTesting.Device.Transcript
import MutationTesting.Discovery
import MutationTesting.Failure
import MutationTesting.FileSystem.Basic
import MutationTesting.FileSystem.Change
import MutationTesting.FileSystem.Listing
import MutationTesting.FileSystem.Walk
import MutationTesting.Host.Basic
import MutationTesting.Host.Path
import MutationTesting.Json.Basic
import MutationTesting.Json.Members
import MutationTesting.Json.Number
import MutationTesting.Json.Token
import MutationTesting.Json.Writer
import MutationTesting.Machine.Basic
import MutationTesting.Machine.Call
import MutationTesting.Machine.Host
import MutationTesting.Machine.Installation
import MutationTesting.Machine.Kernel
import MutationTesting.Machine.Program
import MutationTesting.Machine.Signal
import MutationTesting.Machine.Task
import MutationTesting.Main
import MutationTesting.Mutation.Differ
import MutationTesting.Mutation.Inspector
import MutationTesting.Mutation.LineDiff
import MutationTesting.Mutation.Mutant
import MutationTesting.Mutation.Pass
import MutationTesting.Mutation.Policy
import MutationTesting.Mutation.Record
import MutationTesting.Proofs.Class.ArgumentSize
import MutationTesting.Proofs.Class.Artifact
import MutationTesting.Proofs.Class.Descriptor
import MutationTesting.Proofs.Class.Listing
import MutationTesting.Proofs.Class.Location
import MutationTesting.Proofs.Class.OperandStack
import MutationTesting.Proofs.Class.StackHeight
import MutationTesting.Proofs.Class.TestClass
import MutationTesting.Proofs.CommandLine.LatestRun
import MutationTesting.Proofs.CommandLine.Settings
import MutationTesting.Proofs.CommandLine.Survivor
import MutationTesting.Proofs.CommandLine.Verdict
import MutationTesting.Proofs.Coverage.Account
import MutationTesting.Proofs.Coverage.BlockSequence
import MutationTesting.Proofs.Coverage.Ingest
import MutationTesting.Proofs.Coverage.LocationIndex
import MutationTesting.Proofs.Coverage.Number
import MutationTesting.Proofs.Coverage.Reader
import MutationTesting.Proofs.Coverage.Reencoding
import MutationTesting.Proofs.Coverage.Replay
import MutationTesting.Proofs.Coverage.RoundTrip
import MutationTesting.Proofs.Coverage.Scan
import MutationTesting.Proofs.Coverage.Store
import MutationTesting.Proofs.Coverage.StringGroups
import MutationTesting.Proofs.Coverage.WrittenText
import MutationTesting.Proofs.Decimal.Binary
import MutationTesting.Proofs.Decimal.Digits
import MutationTesting.Proofs.Decimal.Fraction
import MutationTesting.Proofs.Decimal.Shortest
import MutationTesting.Proofs.Device.LineEnding
import MutationTesting.Proofs.Device.Occurrence
import MutationTesting.Proofs.Device.TestStart
import MutationTesting.Proofs.Device.Transcript
import MutationTesting.Proofs.FileSystem.Change
import MutationTesting.Proofs.FileSystem.Leaves
import MutationTesting.Proofs.FileSystem.Listing
import MutationTesting.Proofs.FileSystem.Ways
import MutationTesting.Proofs.Host.Disk
import MutationTesting.Proofs.Host.Files
import MutationTesting.Proofs.Host.Mortal
import MutationTesting.Proofs.Host.Order
import MutationTesting.Proofs.Host.Script
import MutationTesting.Proofs.Host.Steps
import MutationTesting.Proofs.Host.Watched
import MutationTesting.Proofs.Json.Members
import MutationTesting.Proofs.Json.Number
import MutationTesting.Proofs.Json.RoundTrip
import MutationTesting.Proofs.Json.Token
import MutationTesting.Proofs.Mutation.CallRemoval
import MutationTesting.Proofs.Mutation.Chain
import MutationTesting.Proofs.Mutation.ChangedLines
import MutationTesting.Proofs.Mutation.ClassPass
import MutationTesting.Proofs.Mutation.DeclaredStack
import MutationTesting.Proofs.Mutation.Difference
import MutationTesting.Proofs.Mutation.Finding
import MutationTesting.Proofs.Mutation.Frame
import MutationTesting.Proofs.Mutation.FreshParser
import MutationTesting.Proofs.Mutation.Independence
import MutationTesting.Proofs.Mutation.Labels
import MutationTesting.Proofs.Mutation.LiveSite
import MutationTesting.Proofs.Mutation.Lookup
import MutationTesting.Proofs.Mutation.Readable
import MutationTesting.Proofs.Mutation.ReturnType
import MutationTesting.Proofs.Mutation.Site
import MutationTesting.Proofs.Mutation.StackNeutral
import MutationTesting.Proofs.Mutation.VisibleChange
import MutationTesting.Proofs.Run.Accounting
import MutationTesting.Proofs.Run.ArtifactPlaces
import MutationTesting.Proofs.Run.Backup
import MutationTesting.Proofs.Run.Baseline
import MutationTesting.Proofs.Run.BrokenSwap
import MutationTesting.Proofs.Run.ClaimSteps
import MutationTesting.Proofs.Run.Concurrency
import MutationTesting.Proofs.Run.Evaluation
import MutationTesting.Proofs.Run.Guards
import MutationTesting.Proofs.Run.Quiet
import MutationTesting.Proofs.Run.Recovery
import MutationTesting.Proofs.Run.Restoration
import MutationTesting.Proofs.Run.Selection
import MutationTesting.Proofs.Run.Session
import MutationTesting.Proofs.Run.Summary
import MutationTesting.Proofs.Run.TestDiscovery
import MutationTesting.Run.ArtifactGuard
import MutationTesting.Run.Baseline
import MutationTesting.Run.Claim
import MutationTesting.Run.CoverageMap
import MutationTesting.Run.Deployment
import MutationTesting.Run.MutationRun
import MutationTesting.Run.Summary
import MutationTesting.Shell.Builtin
import MutationTesting.Shell.Expansion
import MutationTesting.Shell.Formula
import MutationTesting.Shell.Interpreter
import MutationTesting.Shell.Job
import MutationTesting.Shell.Parser
import MutationTesting.Shell.Program
import MutationTesting.Shell.Redirect
import MutationTesting.Shell.Scanner
import MutationTesting.Shell.State
import MutationTesting.Shell.Syntax
import MutationTesting.Shell.Tracking
import MutationTesting.Text.Alignment
import MutationTesting.Text.Blank
import MutationTesting.Text.CharSet
import MutationTesting.Text.Expression
import MutationTesting.Text.Glob
import MutationTesting.Text.Hex
import MutationTesting.Text.Hidden
import MutationTesting.Text.Octets
import MutationTesting.Text.Pattern
import MutationTesting.Text.Utf8
import MutationTesting.Tool.Basic
import MutationTesting.Tool.Batch
import MutationTesting.Tool.Byte
import MutationTesting.Tool.Column
import MutationTesting.Tool.Compare
import MutationTesting.Tool.Condition
import MutationTesting.Tool.Copy
import MutationTesting.Tool.Date
import MutationTesting.Tool.Describe
import MutationTesting.Tool.Difference
import MutationTesting.Tool.Edit
import MutationTesting.Tool.EditScript
import MutationTesting.Tool.Environment
import MutationTesting.Tool.Field
import MutationTesting.Tool.File
import MutationTesting.Tool.Find
import MutationTesting.Tool.FindCondition
import MutationTesting.Tool.Hunk
import MutationTesting.Tool.Install
import MutationTesting.Tool.Launch
import MutationTesting.Tool.Line
import MutationTesting.Tool.Listing
import MutationTesting.Tool.Lock
import MutationTesting.Tool.Merge
import MutationTesting.Tool.Number
import MutationTesting.Tool.Print
import MutationTesting.Tool.Removal
import MutationTesting.Tool.Repertoire
import MutationTesting.Tool.Repetition
import MutationTesting.Tool.Search
import MutationTesting.Tool.Sort
import MutationTesting.Tool.Stream
import MutationTesting.Tool.Surroundings
import MutationTesting.Tool.Timing
import MutationTesting.Tool.Transfer
import MutationTesting.Tool.Value
