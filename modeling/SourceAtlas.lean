import SourceAtlas.CommandLine.Arguments
import SourceAtlas.CommandLine.Flag
import SourceAtlas.CommandLine.Run
import SourceAtlas.CommandLine.Word
import SourceAtlas.Extract
import SourceAtlas.Extract.Dotted
import SourceAtlas.Extract.Quoted
import SourceAtlas.FileSystem.Entry
import SourceAtlas.FileSystem.Lookup
import SourceAtlas.FileSystem.Settle
import SourceAtlas.FolderTree
import SourceAtlas.ImportGraph
import SourceAtlas.ImportGraph.Memory
import SourceAtlas.Json.Document
import SourceAtlas.Language
import SourceAtlas.Main
import SourceAtlas.Number.Binary64
import SourceAtlas.Number.Decimal
import SourceAtlas.Number.Reading
import SourceAtlas.Options
import SourceAtlas.OrderedSet
import SourceAtlas.Path
import SourceAtlas.Proofs.CommandLine.MainFile
import SourceAtlas.Proofs.CommandLine.Options
import SourceAtlas.Proofs.CommandLine.Root
import SourceAtlas.Proofs.Extract.Dotted
import SourceAtlas.Proofs.Extract.Lines
import SourceAtlas.Proofs.Extract.Quoted
import SourceAtlas.Proofs.Extract.Segments
import SourceAtlas.Proofs.Extract.Statement
import SourceAtlas.Proofs.FileSystem.Mend
import SourceAtlas.Proofs.FileSystem.Place
import SourceAtlas.Proofs.FileSystem.Settle
import SourceAtlas.Proofs.FileSystem.Tree
import SourceAtlas.Proofs.FolderTree.Commute
import SourceAtlas.Proofs.FolderTree.Everywhere
import SourceAtlas.Proofs.FolderTree.Exact
import SourceAtlas.Proofs.FolderTree.Routes
import SourceAtlas.Proofs.ImportGraph.Added
import SourceAtlas.Proofs.ImportGraph.Closed
import SourceAtlas.Proofs.ImportGraph.History
import SourceAtlas.Proofs.ImportGraph.Links
import SourceAtlas.Proofs.ImportGraph.Memory
import SourceAtlas.Proofs.ImportGraph.Realise
import SourceAtlas.Proofs.ImportGraph.SelfImport
import SourceAtlas.Proofs.ImportGraph.Tables
import SourceAtlas.Proofs.Keyed
import SourceAtlas.Proofs.Number.Range
import SourceAtlas.Proofs.Outcome
import SourceAtlas.Proofs.Path.Canonical
import SourceAtlas.Proofs.Path.Key
import SourceAtlas.Proofs.Path.Mixed
import SourceAtlas.Proofs.Path.Normal
import SourceAtlas.Proofs.Path.Settled
import SourceAtlas.Proofs.Path.Spelling
import SourceAtlas.Proofs.Path.Stack
import SourceAtlas.Proofs.Path.Suffix
import SourceAtlas.Proofs.Path.Tidy
import SourceAtlas.Proofs.Reading.Bytes
import SourceAtlas.Proofs.Reading.Complete
import SourceAtlas.Proofs.Reading.Exact
import SourceAtlas.Proofs.Reading.GivenUp
import SourceAtlas.Proofs.Reading.Loop
import SourceAtlas.Proofs.Reading.Mirror
import SourceAtlas.Proofs.Reading.Orderly
import SourceAtlas.Proofs.Reading.Passes
import SourceAtlas.Proofs.Reading.Polled
import SourceAtlas.Proofs.Reading.Pool
import SourceAtlas.Proofs.Reading.Progress
import SourceAtlas.Proofs.Reading.Readers
import SourceAtlas.Proofs.Reading.Rounds
import SourceAtlas.Proofs.Reading.Scheduled
import SourceAtlas.Proofs.Reading.Tickets
import SourceAtlas.Proofs.Render.Cycle
import SourceAtlas.Proofs.Render.Drawing
import SourceAtlas.Proofs.Render.Exact
import SourceAtlas.Proofs.Render.FlowLine
import SourceAtlas.Proofs.Render.Flowchart
import SourceAtlas.Proofs.Render.FolderLine
import SourceAtlas.Proofs.Render.Forest
import SourceAtlas.Proofs.Render.Identifier
import SourceAtlas.Proofs.Render.Line
import SourceAtlas.Proofs.Render.Listing
import SourceAtlas.Proofs.Render.Missing
import SourceAtlas.Proofs.Render.Named
import SourceAtlas.Proofs.Render.Outline
import SourceAtlas.Proofs.Render.Path
import SourceAtlas.Proofs.Render.ReadBack
import SourceAtlas.Proofs.Render.Subgraph
import SourceAtlas.Proofs.Report.Consistent
import SourceAtlas.Proofs.Report.Critical
import SourceAtlas.Proofs.Report.MainFile
import SourceAtlas.Proofs.Report.Order
import SourceAtlas.Proofs.Report.Permuted
import SourceAtlas.Proofs.Report.Ranking
import SourceAtlas.Proofs.Report.Rebuilt
import SourceAtlas.Proofs.Resolve.Direct
import SourceAtlas.Proofs.Resolve.Separators
import SourceAtlas.Proofs.Resolve.Stack
import SourceAtlas.Proofs.Scan.Cancel
import SourceAtlas.Proofs.Scan.Faults
import SourceAtlas.Proofs.Scan.Gather
import SourceAtlas.Proofs.Scan.Pinned
import SourceAtlas.Proofs.Scan.Readings
import SourceAtlas.Proofs.Scan.Unheeded
import SourceAtlas.Proofs.Scan.Untracked
import SourceAtlas.Proofs.Session.History
import SourceAtlas.Proofs.Settings.Apply
import SourceAtlas.Proofs.Settings.Malformed
import SourceAtlas.Proofs.Settings.Recleaned
import SourceAtlas.Proofs.Settings.Without
import SourceAtlas.Proofs.Signal
import SourceAtlas.Proofs.Text.Case
import SourceAtlas.Proofs.Text.Class
import SourceAtlas.Proofs.Text.Ends
import SourceAtlas.Proofs.Text.Pattern
import SourceAtlas.Proofs.Text.Piece
import SourceAtlas.Proofs.Text.Search
import SourceAtlas.Proofs.Walk.Chunks
import SourceAtlas.Proofs.Walk.Exact
import SourceAtlas.Proofs.Walk.Mend
import SourceAtlas.Proofs.Walk.Tracked
import SourceAtlas.Proofs.Walk.Trail
import SourceAtlas.Rank
import SourceAtlas.Reading.Loop
import SourceAtlas.Reading.Pool
import SourceAtlas.Reading.Schedule
import SourceAtlas.Render.Connector
import SourceAtlas.Render.Dependency
import SourceAtlas.Render.Folder
import SourceAtlas.Render.Json
import SourceAtlas.Render.Mermaid
import SourceAtlas.Render.Text
import SourceAtlas.Report
import SourceAtlas.Report.Assemble
import SourceAtlas.Resolve
import SourceAtlas.Scan
import SourceAtlas.Session
import SourceAtlas.Settings.Apply
import SourceAtlas.Settings.Calendar
import SourceAtlas.Settings.File
import SourceAtlas.Settings.Json
import SourceAtlas.Settings.Toml
import SourceAtlas.Settings.Value
import SourceAtlas.Settings.Yaml
import SourceAtlas.Settings.Yaml.Cursor
import SourceAtlas.Settings.Yaml.Node
import SourceAtlas.Settings.Yaml.Scalar
import SourceAtlas.Settings.Yaml.Tag
import SourceAtlas.Settings.Yaml.Token
import SourceAtlas.Signal
import SourceAtlas.Text.Base64
import SourceAtlas.Text.Case
import SourceAtlas.Text.CaseTable
import SourceAtlas.Text.Class
import SourceAtlas.Text.CodeRange
import SourceAtlas.Text.Pattern
import SourceAtlas.Text.Piece
import SourceAtlas.Text.PrintTable
import SourceAtlas.Text.Quoted
import SourceAtlas.Text.Utf8
import SourceAtlas.Text.WordTable
import SourceAtlas.TrackedFile
import SourceAtlas.Walk
