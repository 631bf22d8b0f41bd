import WorkspaceLint.Candidate
import WorkspaceLint.Check.Duplicates
import WorkspaceLint.Check.Naming
import WorkspaceLint.Check.References
import WorkspaceLint.Check.Structure
import WorkspaceLint.Check.Surroundings
import WorkspaceLint.CommandLine.Arguments
import WorkspaceLint.CommandLine.Run
import WorkspaceLint.DataFile
import WorkspaceLint.Diagnostic
import WorkspaceLint.DirList
import WorkspaceLint.Discovery
import WorkspaceLint.Failure
import WorkspaceLint.Files.Canonical
import WorkspaceLint.Files.Edit
import WorkspaceLint.Files.Error
import WorkspaceLint.Files.Lookup
import WorkspaceLint.Files.Node
import WorkspaceLint.Files.Reading
import WorkspaceLint.Files.Walk
import WorkspaceLint.Json.Error
import WorkspaceLint.Json.Reader
import WorkspaceLint.Json.Token
import WorkspaceLint.Json.Writer
import WorkspaceLint.LintRun
import WorkspaceLint.Log
import WorkspaceLint.Main
import WorkspaceLint.Naming.Style
import WorkspaceLint.Number.Binary64
import WorkspaceLint.Number.Decimal
import WorkspaceLint.Number.Limit
import WorkspaceLint.Number.Numeral
import WorkspaceLint.Number.Shortest
import WorkspaceLint.Path
import WorkspaceLint.ProjectFiles
import WorkspaceLint.Report.Data
import WorkspaceLint.Report.Plain
import WorkspaceLint.Rules
import WorkspaceLint.Settings.Basic
import WorkspaceLint.Settings.EnvFile
import WorkspaceLint.Settings.Field
import WorkspaceLint.Settings.Load
import WorkspaceLint.Settings.Mapping
import WorkspaceLint.Snapshot
import WorkspaceLint.Source.CompileTargets
import WorkspaceLint.Source.ExportedClass
import WorkspaceLint.SourceFile
import WorkspaceLint.SourceScan
import WorkspaceLint.Text.Base64
import WorkspaceLint.Text.Blank
import WorkspaceLint.Text.Case
import WorkspaceLint.Text.CaseTable
import WorkspaceLint.Text.DigitTable
import WorkspaceLint.Text.Hex
import WorkspaceLint.Text.Lines
import WorkspaceLint.Text.PrintableTable
import WorkspaceLint.Text.Quoted
import WorkspaceLint.Text.Ranges
import WorkspaceLint.Text.Search
import WorkspaceLint.Text.Utf8
import WorkspaceLint.Value.Basic
import WorkspaceLint.Value.Literal
import WorkspaceLint.Value.Moment
import WorkspaceLint.Yaml.Document
import WorkspaceLint.Yaml.Error
import WorkspaceLint.Yaml.Node
import WorkspaceLint.Yaml.Placed
import WorkspaceLint.Yaml.Scalar.Block
import WorkspaceLint.Yaml.Scalar.Plain
import WorkspaceLint.Yaml.Scalar.Quoted
import WorkspaceLint.Yaml.Scan
import WorkspaceLint.Yaml.Tag
import WorkspaceLint.Yaml.Timestamp
import WorkspaceLint.Yaml.Token
import WorkspaceLint.Proofs.Files.Positions
import WorkspaceLint.Proofs.Files.Resolution
import WorkspaceLint.Proofs.Files.Canonical
import WorkspaceLint.Proofs.Files.Walks
import WorkspaceLint.Proofs.Outcome
import WorkspaceLint.Proofs.Files.Contents
import WorkspaceLint.Proofs.Files.Reach
import WorkspaceLint.Proofs.Discovery
import WorkspaceLint.Proofs.SourceScan
import WorkspaceLint.Proofs.FileNames
import WorkspaceLint.Proofs.Checks
import WorkspaceLint.Proofs.LintRun
import WorkspaceLint.Proofs.CleanRun
import WorkspaceLint.Proofs.Isolation
import WorkspaceLint.Proofs.LongIntegers
import WorkspaceLint.Proofs.Manifests
import WorkspaceLint.Proofs.Files.Listing
import WorkspaceLint.Proofs.ListingOrder
import WorkspaceLint.Proofs.ExitCode
import WorkspaceLint.Proofs.ScanRoots
import WorkspaceLint.Proofs.Files.LinkFree
import WorkspaceLint.Proofs.Files.Caches
import WorkspaceLint.Proofs.DependencyCaches
import WorkspaceLint.Proofs.ShownLocations
import WorkspaceLint.Proofs.Files.Entries
import WorkspaceLint.Proofs.CheckedFiles
import WorkspaceLint.Proofs.Locations
import WorkspaceLint.Proofs.TargetDirs
import WorkspaceLint.Proofs.NestedProjects
import WorkspaceLint.Proofs.NamingDirs
import WorkspaceLint.Proofs.Candidates
import WorkspaceLint.Proofs.LineEnds
import WorkspaceLint.Proofs.JsonReports
import WorkspaceLint.Proofs.QuietRuns
import WorkspaceLint.Proofs.Output
import WorkspaceLint.Proofs.ExactScan
import WorkspaceLint.Proofs.FileKinds
import WorkspaceLint.Proofs.SnakeCase
import WorkspaceLint.Proofs.Duplicates
import WorkspaceLint.Proofs.LowerCase
import WorkspaceLint.Proofs.SnakeCaseForms
import WorkspaceLint.Proofs.ExpectedNames
import WorkspaceLint.Proofs.CorrectedFiles
import WorkspaceLint.Proofs.NamingPass
import WorkspaceLint.Proofs.AcceptedNames
import WorkspaceLint.Proofs.TextSearch
import WorkspaceLint.Proofs.DeclaredTargets
import WorkspaceLint.Proofs.ReferencedFiles
import WorkspaceLint.Proofs.Requirements
import WorkspaceLint.Proofs.Relocation
import WorkspaceLint.Proofs.Snapshots
import WorkspaceLint.Proofs.VisibleTrees
import WorkspaceLint.Proofs.Surroundings
import WorkspaceLint.Proofs.PlainReports
import WorkspaceLint.Proofs.LoadedReports
import WorkspaceLint.Proofs.DirectoryLists
import WorkspaceLint.Proofs.ExportedClasses
import WorkspaceLint.Proofs.ProjectWalks
