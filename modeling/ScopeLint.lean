import ScopeLint.Catalogue
import ScopeLint.CommandLine.Arguments
import ScopeLint.CommandLine.Commands
import ScopeLint.Configuration
import ScopeLint.ConfigurationSource
import ScopeLint.Console
import ScopeLint.Decimal.Binary64
import ScopeLint.Decimal.Shortest
import ScopeLint.Dialect
import ScopeLint.Directive
import ScopeLint.Discovery
import ScopeLint.FileSystem
import ScopeLint.Finding
import ScopeLint.Glob
import ScopeLint.Ignore.Levels
import ScopeLint.Ignore.Pattern
import ScopeLint.Ignore.Personal
import ScopeLint.Ignore.Rules
import ScopeLint.Ignore.Wildcard
import ScopeLint.Json.Number
import ScopeLint.Json.Reader
import ScopeLint.Json.Record
import ScopeLint.Json.Report
import ScopeLint.Json.Value
import ScopeLint.Linter
import ScopeLint.Main
import ScopeLint.Misfit
import ScopeLint.Path
import ScopeLint.Placement
import ScopeLint.Proofs.Address
import ScopeLint.Proofs.Alignment
import ScopeLint.Proofs.Analysis
import ScopeLint.Proofs.ByteOrder
import ScopeLint.Proofs.Colours
import ScopeLint.Proofs.Comments
import ScopeLint.Proofs.Components
import ScopeLint.Proofs.Coverage
import ScopeLint.Proofs.Cut
import ScopeLint.Proofs.Deletion
import ScopeLint.Proofs.Directives
import ScopeLint.Proofs.Entry
import ScopeLint.Proofs.Exclusion
import ScopeLint.Proofs.ExitStatus
import ScopeLint.Proofs.Faithful
import ScopeLint.Proofs.Faults
import ScopeLint.Proofs.Flags
import ScopeLint.Proofs.Joining
import ScopeLint.Proofs.JsonLiterals
import ScopeLint.Proofs.JsonText
import ScopeLint.Proofs.LineNumbers
import ScopeLint.Proofs.Links
import ScopeLint.Proofs.LoopBodies
import ScopeLint.Proofs.Moving
import ScopeLint.Proofs.Nesting
import ScopeLint.Proofs.Overrides
import ScopeLint.Proofs.Permissions
import ScopeLint.Proofs.Places
import ScopeLint.Proofs.Plan
import ScopeLint.Proofs.Provenance
import ScopeLint.Proofs.Ranges
import ScopeLint.Proofs.ReadBack
import ScopeLint.Proofs.ReportOrder
import ScopeLint.Proofs.Reports
import ScopeLint.Proofs.RuleOptions
import ScopeLint.Proofs.Searching
import ScopeLint.Proofs.Settings
import ScopeLint.Proofs.ShownPaths
import ScopeLint.Proofs.Sorting
import ScopeLint.Proofs.Spans
import ScopeLint.Proofs.Upward
import ScopeLint.Proofs.Verdicts
import ScopeLint.Proofs.Visits
import ScopeLint.Proofs.Walk
import ScopeLint.Report
import ScopeLint.Rule
import ScopeLint.Selection
import ScopeLint.Severity
import ScopeLint.Syntax.Concrete
import ScopeLint.Syntax.Kind
import ScopeLint.Syntax.Listing
import ScopeLint.Syntax.Outline
import ScopeLint.Syntax.Outlining
import ScopeLint.Syntax.Visit
import ScopeLint.Text.Blank
import ScopeLint.Text.Bytes
import ScopeLint.Text.Digits
import ScopeLint.Text.Hidden
import ScopeLint.Text.Lines
import ScopeLint.Text.Quoted
import ScopeLint.Text.Search
import ScopeLint.Text.Suffixes
import ScopeLint.Toml.Document
import ScopeLint.Toml.Quoted
import ScopeLint.Toml.Reader
import ScopeLint.Toml.Record
import ScopeLint.Toml.Scalar
import ScopeLint.Toml.Value
