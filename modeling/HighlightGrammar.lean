import HighlightGrammar.Baseline.Divergence
import HighlightGrammar.Baseline.Error
import HighlightGrammar.Baseline.Loading
import HighlightGrammar.Baseline.Registry
import HighlightGrammar.Baseline.Report
import HighlightGrammar.Baseline.Suite
import HighlightGrammar.Baseline.SuiteTasks
import HighlightGrammar.Baseline.Trace
import HighlightGrammar.Build
import HighlightGrammar.CommandLine.Arguments
import HighlightGrammar.CommandLine.Help
import HighlightGrammar.CommandLine.Run
import HighlightGrammar.Decimal.Binary64
import HighlightGrammar.Decimal.Layout
import HighlightGrammar.Decimal.Shortest
import HighlightGrammar.Encoding.Json
import HighlightGrammar.Encoding.PropertyList
import HighlightGrammar.Grammar.Body
import HighlightGrammar.Grammar.Document
import HighlightGrammar.Grammar.Error
import HighlightGrammar.Grammar.Field
import HighlightGrammar.Grammar.Grammar
import HighlightGrammar.Grammar.Loader
import HighlightGrammar.Grammar.Output
import HighlightGrammar.Grammar.Placeholder
import HighlightGrammar.Grammar.Rule.Basic
import HighlightGrammar.Grammar.Rule.Patterns
import HighlightGrammar.Grammar.Rule.Reading
import HighlightGrammar.Grammar.Rule.Writing
import HighlightGrammar.Grammar.RulePath
import HighlightGrammar.Grammar.VariableResolver
import HighlightGrammar.Grammar.VariableTable
import HighlightGrammar.Kind
import HighlightGrammar.Main
import HighlightGrammar.Path
import HighlightGrammar.Scan.Token
import HighlightGrammar.Scan.Tokenizer
import HighlightGrammar.Settings.Basic
import HighlightGrammar.Settings.KeyPath
import HighlightGrammar.Settings.Layers
import HighlightGrammar.Settings.Reading
import HighlightGrammar.Settings.Value
import HighlightGrammar.Storage.Basic
import HighlightGrammar.Storage.FileSystem
import HighlightGrammar.Storage.Script
import HighlightGrammar.Storage.TaskPool
import HighlightGrammar.Table
import HighlightGrammar.Text.Blank
import HighlightGrammar.Text.Folding
import HighlightGrammar.Text.Hexadecimal
import HighlightGrammar.Text.Lines
import HighlightGrammar.Text.Lowercase
import HighlightGrammar.Text.Visible
import HighlightGrammar.Toml.Draft
import HighlightGrammar.Toml.Quoted
import HighlightGrammar.Toml.Reader
import HighlightGrammar.Toml.Scalar
import HighlightGrammar.Toml.Value
import HighlightGrammar.Tree
import HighlightGrammar.Yaml.Character
import HighlightGrammar.Yaml.Node
import HighlightGrammar.Yaml.Outline
import HighlightGrammar.Yaml.Reader
import HighlightGrammar.Yaml.Scalar
import HighlightGrammar.Yaml.Style
import HighlightGrammar.Yaml.Tag
import HighlightGrammar.Yaml.Text.Block
import HighlightGrammar.Yaml.Text.Gap
import HighlightGrammar.Yaml.Text.Plain
import HighlightGrammar.Yaml.Text.Quoted
import HighlightGrammar.Yaml.Token
import HighlightGrammar.Yaml.Token.Lexer
import HighlightGrammar.Yaml.Writer
import HighlightGrammar.Proofs.Variables.Replacement
import HighlightGrammar.Proofs.Documents.Idempotence
import HighlightGrammar.Proofs.Documents.InPlace
import HighlightGrammar.Proofs.Documents.ReadTrees
import HighlightGrammar.Proofs.CommandLine.Checking
import HighlightGrammar.Proofs.Baseline.Agreement
import HighlightGrammar.Proofs.Baseline.TraceText
import HighlightGrammar.Proofs.Baseline.ReportText
import HighlightGrammar.Proofs.Baseline.Comparison
import HighlightGrammar.Proofs.Documents.Overrides
import HighlightGrammar.Proofs.Baseline.Independence
import HighlightGrammar.Proofs.Baseline.Approval
import HighlightGrammar.Proofs.Baseline.Sequential
import HighlightGrammar.Proofs.Documents.Positions
import HighlightGrammar.Proofs.CommandLine.Printing
import HighlightGrammar.Proofs.Builds.Siblings
import HighlightGrammar.Proofs.Variables.Seams
import HighlightGrammar.Proofs.Documents.Diagnosis
import HighlightGrammar.Proofs.Baseline.Feeding
import HighlightGrammar.Proofs.Baseline.TraceLayout
import HighlightGrammar.Proofs.Baseline.Verdicts
import HighlightGrammar.Proofs.Encoding.Offences
import HighlightGrammar.Proofs.Encoding.Retention
import HighlightGrammar.Proofs.Documents.Acceptance
import HighlightGrammar.Proofs.Text.Splitting
import HighlightGrammar.Proofs.Variables.Merging
import HighlightGrammar.Proofs.Baseline.OptingOut
