import Deadwood.Sorted
import Deadwood.Backup
import Deadwood.Code.CallEdge
import Deadwood.Code.FunctionIndex
import Deadwood.Code.FunctionRecord
import Deadwood.Code.Json
import Deadwood.Code.TypeRelation
import Deadwood.CommandLine.Analysis
import Deadwood.CommandLine.Catalogue
import Deadwood.CommandLine.Deletion
import Deadwood.CommandLine.Flag
import Deadwood.CommandLine.Help
import Deadwood.CommandLine.Request
import Deadwood.CommandLine.Run
import Deadwood.CommandLine.Session
import Deadwood.CommandLine.Upkeep
import Deadwood.CommandLine.Workspace
import Deadwood.Cycle.Boundary
import Deadwood.Cycle.Classified
import Deadwood.Cycle.LayerTable
import Deadwood.Cycle.Overview
import Deadwood.Cycle.Search
import Deadwood.Datum
import Deadwood.Decimal.Basic
import Deadwood.Decimal.Layout
import Deadwood.Disk.Basic
import Deadwood.Disk.Replace
import Deadwood.EntryPoint
import Deadwood.Evidence.Basic
import Deadwood.Evidence.Call
import Deadwood.Evidence.Query
import Deadwood.Fault
import Deadwood.Glob
import Deadwood.Graph.Basic
import Deadwood.Graph.Component
import Deadwood.Graph.Reach
import Deadwood.Hash.Blake3
import Deadwood.Hash.XxHash
import Deadwood.Json.Access
import Deadwood.Json.Basic
import Deadwood.Json.Canonical
import Deadwood.Json.Message
import Deadwood.Json.Printer
import Deadwood.Json.Reader
import Deadwood.Json.Record
import Deadwood.Main
import Deadwood.Memo
import Deadwood.Metrics
import Deadwood.Numeral
import Deadwood.Path
import Deadwood.PathPattern
import Deadwood.Pruning.Candidate
import Deadwood.Pruning.LineRange
import Deadwood.Pruning.Options
import Deadwood.Pruning.Outcome
import Deadwood.Pruning.Run
import Deadwood.Reachability
import Deadwood.Report.Basic
import Deadwood.Report.Grid
import Deadwood.Report.Json
import Deadwood.Report.Log
import Deadwood.Report.Style
import Deadwood.Report.Toon
import Deadwood.Scale
import Deadwood.Settings.Basic
import Deadwood.Settings.Field
import Deadwood.Settings.Json
import Deadwood.Settings.Load
import Deadwood.Shell.Builtin
import Deadwood.Shell.Condition
import Deadwood.Shell.Expand
import Deadwood.Shell.Format
import Deadwood.Shell.Machine
import Deadwood.Shell.Pattern
import Deadwood.Shell.Process
import Deadwood.Shell.Reader
import Deadwood.Shell.Regex
import Deadwood.Shell.Reply
import Deadwood.Shell.Run
import Deadwood.Shell.Runner
import Deadwood.Shell.Script
import Deadwood.Shell.Signal
import Deadwood.Shell.Sum
import Deadwood.Shell.Tool
import Deadwood.Shell.Tool.Edit
import Deadwood.Shell.Tool.Files
import Deadwood.Shell.Tool.Filter
import Deadwood.Shell.Tool.Options
import Deadwood.Shell.Tool.Search
import Deadwood.Snapshot
import Deadwood.Sorted.Quick
import Deadwood.Store.Basic
import Deadwood.Store.File
import Deadwood.Store.Memory
import Deadwood.Store.Relational
import Deadwood.Text.Base64
import Deadwood.Text.Case
import Deadwood.Text.Class
import Deadwood.Text.Cluster
import Deadwood.Text.Csv
import Deadwood.Text.Quoted
import Deadwood.Text.Segments
import Deadwood.Text.Template
import Deadwood.Text.Utf8
import Deadwood.Text.Width
import Deadwood.Time
import Deadwood.Toml.Document
import Deadwood.Toml.Printer
import Deadwood.Toml.Token
import Deadwood.Validation
import Deadwood.Yaml.Data
import Deadwood.Yaml.Node
import Deadwood.Yaml.Scalar
import Deadwood.Yaml.Scan
import Deadwood.Yaml.Style
import Deadwood.Yaml.Tag
import Deadwood.Yaml.Token
import Deadwood.Zstd
import Deadwood.Zstd.Bits
import Deadwood.Zstd.Block
import Deadwood.Zstd.PrefixCode
import Deadwood.Zstd.StateTable
import Deadwood.Proofs.Assoc
import Deadwood.Proofs.Backup.Create
import Deadwood.Proofs.Backup.Damaged
import Deadwood.Proofs.Backup.Manifest
import Deadwood.Proofs.Backup.Restore
import Deadwood.Proofs.Backup.Shown
import Deadwood.Proofs.Cycle.Enumerate
import Deadwood.Proofs.Cycle.Marked
import Deadwood.Proofs.Cycle.Overview
import Deadwood.Proofs.Cycle.Search
import Deadwood.Proofs.Cycle.Simple
import Deadwood.Proofs.Cycle.Trace
import Deadwood.Proofs.Disk.Atomic
import Deadwood.Proofs.Disk.Frame
import Deadwood.Proofs.Disk.Locate
import Deadwood.Proofs.Disk.Replace
import Deadwood.Proofs.Evidence.Compatible
import Deadwood.Proofs.Evidence.Crew
import Deadwood.Proofs.Evidence.Facts
import Deadwood.Proofs.Evidence.Lookups
import Deadwood.Proofs.Evidence.Score
import Deadwood.Proofs.Evidence.Session
import Deadwood.Proofs.Evidence.Transparent
import Deadwood.Proofs.Evidence.Worker
import Deadwood.Proofs.Glob
import Deadwood.Proofs.Graph.Arrows
import Deadwood.Proofs.Graph.Component
import Deadwood.Proofs.Graph.Distance
import Deadwood.Proofs.Graph.Reach
import Deadwood.Proofs.Graph.Representation
import Deadwood.Proofs.Graph.Survey
import Deadwood.Proofs.Graph.Walk
import Deadwood.Proofs.Json.Parse
import Deadwood.Proofs.Keyed
import Deadwood.Proofs.Listing
import Deadwood.Proofs.Memo
import Deadwood.Proofs.Numeral
import Deadwood.Proofs.Path
import Deadwood.Proofs.Pruning.Account
import Deadwood.Proofs.Pruning.Batch
import Deadwood.Proofs.Pruning.Callees
import Deadwood.Proofs.Pruning.FailClosed
import Deadwood.Proofs.Pruning.Independent
import Deadwood.Proofs.Pruning.Keys
import Deadwood.Proofs.Pruning.Lines
import Deadwood.Proofs.Pruning.Patterns
import Deadwood.Proofs.Pruning.Remove
import Deadwood.Proofs.Pruning.Restore
import Deadwood.Proofs.Pruning.Run
import Deadwood.Proofs.Pruning.Safeguard
import Deadwood.Proofs.Pruning.Select
import Deadwood.Proofs.Pruning.Source
import Deadwood.Proofs.Pruning.Verdict
import Deadwood.Proofs.Pruning.Widen
import Deadwood.Proofs.Sorted
import Deadwood.Proofs.Store.Acceptance
import Deadwood.Proofs.Store.Agreement
import Deadwood.Proofs.Store.CreationTime
import Deadwood.Proofs.Store.History
import Deadwood.Proofs.Store.Holds
import Deadwood.Proofs.Store.Tables
import Deadwood.Proofs.Text.Utf8
import Deadwood.Proofs.Time
import Deadwood.Proofs.Zstd
import Deadwood.Proofs.Cycle.Bounds
import Deadwood.Proofs.Cycle.Filter
import Deadwood.Proofs.Cycle.Nesting
import Deadwood.Proofs.Cycle.Recorded
import Deadwood.Proofs.Evidence.Order
import Deadwood.Proofs.Metrics.Calls
import Deadwood.Proofs.Metrics.Ranking
