import Syndication.Article.Basic
import Syndication.Article.File
import Syndication.Article.FrontMatter
import Syndication.CommandLine.Arguments
import Syndication.CommandLine.Example
import Syndication.CommandLine.Inspection
import Syndication.CommandLine.Output
import Syndication.CommandLine.Publishing
import Syndication.CommandLine.Readiness
import Syndication.CommandLine.Run
import Syndication.Context
import Syndication.Decimal.Binary64
import Syndication.Decimal.Extended
import Syndication.Decimal.Reading
import Syndication.Decimal.Shortest
import Syndication.Definition.Basic
import Syndication.Definition.Error
import Syndication.Definition.Library
import Syndication.Definition.Spec
import Syndication.Definition.Validation
import Syndication.Definition.Vocabulary
import Syndication.Diagnosis
import Syndication.Document.Basic
import Syndication.Document.Plain
import Syndication.Duration
import Syndication.Endpoint.Execution
import Syndication.Endpoint.Request
import Syndication.Event
import Syndication.Expression.Basic
import Syndication.Expression.Error
import Syndication.Expression.Literal
import Syndication.Expression.Path
import Syndication.Expression.Spelling
import Syndication.Files.Path
import Syndication.Files.Program
import Syndication.Files.Tree
import Syndication.Hooks.Basic
import Syndication.Hooks.Scripted
import Syndication.Http.Basic
import Syndication.Json.Basic
import Syndication.Json.Parser
import Syndication.Json.Printer
import Syndication.Json.Reading
import Syndication.KeyMap
import Syndication.Main
import Syndication.Markup.Clean
import Syndication.Markup.Converter
import Syndication.Markup.Entity
import Syndication.Markup.Html
import Syndication.Markup.Markdown
import Syndication.Program
import Syndication.Proofs.Program.Answers
import Syndication.Proofs.Program.Calm
import Syndication.Proofs.Program.Company
import Syndication.Proofs.Program.Course
import Syndication.Registry.Basic
import Syndication.Registry.Setup
import Syndication.Schedule
import Syndication.Settings.Basic
import Syndication.Settings.File
import Syndication.Settings.Layer
import Syndication.Sync.Options
import Syndication.Sync.Outcome
import Syndication.Sync.Run
import Syndication.Sync.SecondTry
import Syndication.Sync.Task
import Syndication.Template
import Syndication.Text.Blank
import Syndication.Text.DecimalDigit
import Syndication.Text.Lines
import Syndication.Text.LowerCase
import Syndication.Text.Pattern
import Syndication.Text.Quoted
import Syndication.Text.Search
import Syndication.Text.Utf8
import Syndication.Text.WordCharacter
import Syndication.Timestamp
import Syndication.Toml.Document
import Syndication.Toml.Scalar
import Syndication.Toml.Statement
import Syndication.Toml.Table
import Syndication.Transport.Basic
import Syndication.Transport.Offline
import Syndication.Transport.Scripted
import Syndication.Url.Address
import Syndication.Url.Basic
import Syndication.Url.Domain
import Syndication.Url.Percent
import Syndication.Url.Punycode
import Syndication.Uuid
import Syndication.Workflow.Error
import Syndication.Workflow.Images
import Syndication.Workflow.Platform
import Syndication.Workflow.Run
import Syndication.Workflow.State
import Syndication.Workflow.Upload
import Syndication.Yaml.Cursor
import Syndication.Yaml.Document
import Syndication.Yaml.Layout
import Syndication.Yaml.Node
import Syndication.Yaml.Scalar
import Syndication.Yaml.Token
import Syndication.Proofs.Program.Realised
import Syndication.Proofs.Workflow.Itinerary
import Syndication.Proofs.Workflow.Quiet
import Syndication.Proofs.Workflow.Steps
import Syndication.Proofs.Workflow.Route
import Syndication.Proofs.Sync.Publishing
import Syndication.Proofs.Sync.Batch
import Syndication.Proofs.Sync.Rollout
import Syndication.Proofs.Sync.Scheduling
import Syndication.Proofs.Sync.Cancellation
import Syndication.Proofs.Sync.Completion
import Syndication.Proofs.Sync.Failures
import Syndication.Proofs.Sync.Merging
import Syndication.Proofs.Endpoint.Execution
import Syndication.Proofs.Workflow.TransportFailure
import Syndication.Proofs.Sync.Retrying
import Syndication.Proofs.Sync.Isolation
import Syndication.Proofs.Workflow.Stages
import Syndication.Proofs.Workflow.Uploading
import Syndication.Proofs.Workflow.Hosting
import Syndication.Proofs.Workflow.Contents
import Syndication.Proofs.Workflow.Threading
import Syndication.Proofs.Workflow.Report
import Syndication.Proofs.Sync.Threading
import Syndication.Proofs.Workflow.Writing
import Syndication.Proofs.Hooks.Undeclared
import Syndication.Proofs.Files.Naming
import Syndication.Proofs.Definition.Loading
import Syndication.Proofs.Text.ByteOrder
import Syndication.Proofs.Registry.Calls
import Syndication.Proofs.Registry.SettingUp
import Syndication.Proofs.Registry.Readiness
import Syndication.Proofs.Text.Matching
import Syndication.Proofs.Template.Placeholders
import Syndication.Proofs.Template.Rendering
import Syndication.Proofs.Decimal.Nearest
import Syndication.Proofs.Decimal.Numerals
import Syndication.Proofs.Template.Filling
import Syndication.Proofs.Expression.Paths
import Syndication.Proofs.Expression.Literals
import Syndication.Proofs.Expression.Comparisons
import Syndication.Proofs.Expression.Integers
import Syndication.Proofs.Expression.Chains
import Syndication.Proofs.Hooks.Pruning
import Syndication.Proofs.Endpoint.Headers
import Syndication.Proofs.Results
import Syndication.Proofs.Url.Host
import Syndication.Proofs.Definition.Requirements
import Syndication.Proofs.Definition.Validation
import Syndication.Proofs.Definition.KeyOrder
import Syndication.Proofs.Endpoint.Bodies
import Syndication.Proofs.Markup.Blocks
import Syndication.Proofs.Markup.Tags
import Syndication.Proofs.Markup.Cleaning
import Syndication.Proofs.Markup.Code
import Syndication.Proofs.Markup.Nesting
import Syndication.Proofs.Article.Division
import Syndication.Proofs.Article.Content
import Syndication.Proofs.Text.Edits
import Syndication.Proofs.Workflow.ImagePlaces
import Syndication.Proofs.Workflow.Rewriting
import Syndication.Proofs.Markup.References
import Syndication.Proofs.Text.Boundaries
import Syndication.Proofs.Endpoint.ErrorBody
import Syndication.Proofs.Workflow.ImageOrder
import Syndication.Proofs.Encoding
