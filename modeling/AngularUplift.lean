import AngularUplift.Buffer
import AngularUplift.Calendar
import AngularUplift.CommandLine.Arguments
import AngularUplift.CommandLine.Command
import AngularUplift.CommandLine.Run
import AngularUplift.Construct.Analysis
import AngularUplift.Construct.Component
import AngularUplift.Construct.Constant
import AngularUplift.Construct.Controller
import AngularUplift.Construct.Detection
import AngularUplift.Construct.Directive
import AngularUplift.Construct.Filter
import AngularUplift.Construct.Kind
import AngularUplift.Construct.Record
import AngularUplift.Construct.Service
import AngularUplift.Datum
import AngularUplift.Decimal.Binary64
import AngularUplift.Decimal.Shortest
import AngularUplift.Dependency
import AngularUplift.Endpoint
import AngularUplift.Endpoint.Address
import AngularUplift.Fault
import AngularUplift.Files.Discovery
import AngularUplift.Files.Glob
import AngularUplift.Files.Home
import AngularUplift.Files.Path
import AngularUplift.Files.Tree
import AngularUplift.Files.Utf8
import AngularUplift.Harvest.Basic
import AngularUplift.Harvest.Head
import AngularUplift.Literal.Basic
import AngularUplift.Literal.Printer
import AngularUplift.Literal.Reader
import AngularUplift.Log
import AngularUplift.Main
import AngularUplift.Member
import AngularUplift.Migration.Batch
import AngularUplift.Migration.Component
import AngularUplift.Migration.Directive
import AngularUplift.Migration.Journal
import AngularUplift.Migration.Service
import AngularUplift.Migration.Source
import AngularUplift.Proofs.Buffer.Correspondence
import AngularUplift.Proofs.Buffer.Residual
import AngularUplift.Proofs.Buffer.Spans
import AngularUplift.Proofs.Buffer.Stretches
import AngularUplift.Proofs.Buffer.View
import AngularUplift.Proofs.Construct.FreeName
import AngularUplift.Proofs.Construct.Inlining
import AngularUplift.Proofs.Construct.Members
import AngularUplift.Proofs.Construct.Totality
import AngularUplift.Proofs.Files.Discovery
import AngularUplift.Proofs.Files.Tree
import AngularUplift.Proofs.Files.Walk
import AngularUplift.Proofs.Harvest.Accounting
import AngularUplift.Proofs.Harvest.Declaring
import AngularUplift.Proofs.Harvest.Form
import AngularUplift.Proofs.Harvest.Recording
import AngularUplift.Proofs.Harvest.Rerun
import AngularUplift.Proofs.Harvest.Standing
import AngularUplift.Proofs.Harvest.Unmigrated
import AngularUplift.Proofs.Literal.Completeness
import AngularUplift.Proofs.Literal.Grammar
import AngularUplift.Proofs.Literal.Printed
import AngularUplift.Proofs.Literal.RoundTrip
import AngularUplift.Proofs.Literal.Scalar
import AngularUplift.Proofs.Literal.Soundness
import AngularUplift.Proofs.Literal.Step
import AngularUplift.Proofs.Literal.Token
import AngularUplift.Proofs.Migration.Batch
import AngularUplift.Proofs.Migration.Gathering
import AngularUplift.Proofs.Migration.Isolation
import AngularUplift.Proofs.Migration.Naming
import AngularUplift.Proofs.Migration.PipeSpec
import AngularUplift.Proofs.Migration.Placement
import AngularUplift.Proofs.Migration.Reporting
import AngularUplift.Proofs.Migration.Session
import AngularUplift.Proofs.Receiver
import AngularUplift.Proofs.Sorting
import AngularUplift.Proofs.Suite.Assertion
import AngularUplift.Proofs.Suite.Block
import AngularUplift.Proofs.Suite.Excerpt
import AngularUplift.Proofs.Suite.Expectation
import AngularUplift.Proofs.Suite.Head
import AngularUplift.Proofs.Suite.Order
import AngularUplift.Proofs.Suite.PipeImport
import AngularUplift.Proofs.Suite.PipeTest
import AngularUplift.Proofs.Suite.Printable
import AngularUplift.Proofs.Suite.RoundTrip
import AngularUplift.Proofs.Suite.Rounds
import AngularUplift.Proofs.Suite.Source
import AngularUplift.Proofs.Suite.Termination
import AngularUplift.Proofs.Suite.Title
import AngularUplift.Proofs.Text.Arguments
import AngularUplift.Proofs.Text.Comment
import AngularUplift.Proofs.Text.Delimiter
import AngularUplift.Proofs.Text.Ink
import AngularUplift.Proofs.Text.Line
import AngularUplift.Proofs.Text.Matching
import AngularUplift.Proofs.Text.Occurrence
import AngularUplift.Proofs.Text.Reader
import AngularUplift.Proofs.Text.Slice
import AngularUplift.Proofs.Text.Spelling
import AngularUplift.Proofs.Text.StringLiteral
import AngularUplift.Proofs.Text.Tidy
import AngularUplift.Proofs.Text.Token
import AngularUplift.Proofs.TypeScript.ComponentClass
import AngularUplift.Proofs.TypeScript.Content
import AngularUplift.Proofs.TypeScript.Method
import AngularUplift.Proofs.TypeScript.NormalForm
import AngularUplift.Proofs.Watcher.Call
import AngularUplift.Proofs.Watcher.Extraction
import AngularUplift.Proofs.Watcher.Identifier
import AngularUplift.Proofs.Watcher.Rerun
import AngularUplift.Proofs.Watcher.Shadow
import AngularUplift.Receiver
import AngularUplift.Registration.Call
import AngularUplift.Registration.Factory
import AngularUplift.Report
import AngularUplift.Settings.Basic
import AngularUplift.Settings.File
import AngularUplift.Settings.Options
import AngularUplift.Suite.Basic
import AngularUplift.Suite.Body
import AngularUplift.Suite.Printer
import AngularUplift.Suite.Reader
import AngularUplift.Template
import AngularUplift.Text.Arguments
import AngularUplift.Text.Basic
import AngularUplift.Text.Case
import AngularUplift.Text.Class
import AngularUplift.Text.CodePoint
import AngularUplift.Text.Comment
import AngularUplift.Text.Delimiter
import AngularUplift.Text.Identifier
import AngularUplift.Text.Numeral
import AngularUplift.Text.Pattern
import AngularUplift.Text.Quoted
import AngularUplift.Text.Reader
import AngularUplift.Text.Replacement
import AngularUplift.Text.Statement
import AngularUplift.Text.Tidy
import AngularUplift.Text.Unicode.CaseTable
import AngularUplift.Text.Unicode.Cased
import AngularUplift.Text.Unicode.DecimalZero
import AngularUplift.Text.Unicode.Letter
import AngularUplift.Text.Unicode.Numeral
import AngularUplift.Text.Unicode.Unprintable
import AngularUplift.TypeScript.ComponentClass
import AngularUplift.TypeScript.FeatureModule
import AngularUplift.TypeScript.Layout
import AngularUplift.TypeScript.LegacyScript
import AngularUplift.TypeScript.Member
import AngularUplift.TypeScript.PipeClass
import AngularUplift.TypeScript.ServiceClass
import AngularUplift.Watcher
import AngularUplift.Yaml.Character
import AngularUplift.Yaml.Document
import AngularUplift.Yaml.Lexer
import AngularUplift.Yaml.Merge
import AngularUplift.Yaml.Node
import AngularUplift.Yaml.Scalar
import AngularUplift.Yaml.Token
import AngularUplift.Yaml.Value
import AngularUplift.Proofs.Registration.BindingMap
import AngularUplift.Proofs.Registration.Name
import AngularUplift.Proofs.Construct.Recognition
import AngularUplift.Proofs.TypeScript.Declaration
import AngularUplift.Proofs.TypeScript.Indentation
import AngularUplift.Proofs.Template.Conversion
import AngularUplift.Proofs.Dependency.Qualification
import AngularUplift.Proofs.Settings.Section
import AngularUplift.Proofs.Text.Statement
import AngularUplift.Proofs.Suite.Declaration
import AngularUplift.Proofs.Migration.Dashed
import AngularUplift.Text.Base64
