import FormCheck.Command.Basic
import FormCheck.Command.Help
import FormCheck.Command.Options
import FormCheck.Command.Run
import FormCheck.Config
import FormCheck.Document
import FormCheck.Email.Html
import FormCheck.Email.Pattern
import FormCheck.Email.Simple
import FormCheck.ErrorMap
import FormCheck.Event
import FormCheck.FieldMap
import FormCheck.File
import FormCheck.Json.Basic
import FormCheck.Json.Format
import FormCheck.Json.Number
import FormCheck.Json.Parser
import FormCheck.Json.Printer
import FormCheck.LoadError
import FormCheck.Main
import FormCheck.NameError
import FormCheck.Number.Binary64
import FormCheck.Number.Shortest
import FormCheck.Number.Text
import FormCheck.OutputFormat
import FormCheck.Path
import FormCheck.Proofs.Compilation
import FormCheck.Record
import FormCheck.Report
import FormCheck.Rule.Basic
import FormCheck.Rule.Evaluation
import FormCheck.Rule.Set
import FormCheck.Schema.Basic
import FormCheck.Schema.Decode
import FormCheck.Schema.Load
import FormCheck.Terminal
import FormCheck.Text.Blank
import FormCheck.Text.Hex
import FormCheck.Text.Printable
import FormCheck.Text.Printable.Extending
import FormCheck.Text.Printable.Invisible
import FormCheck.Text.Quoted
import FormCheck.Text.Ranges
import FormCheck.Text.Split
import FormCheck.Text.Trim
import FormCheck.Text.Units
import FormCheck.Toml.Basic
import FormCheck.Toml.Format
import FormCheck.Toml.Parser
import FormCheck.Toml.Scalar
import FormCheck.Toml.Table
import FormCheck.Validator
import FormCheck.Value
import FormCheck.Proofs.RuleTokens
import FormCheck.Proofs.TokenAccounts
import FormCheck.Proofs.RuleStrings
import FormCheck.Proofs.Evaluation
import FormCheck.Proofs.Validation
import FormCheck.Proofs.JsonTokens
import FormCheck.Proofs.JsonLayouts
import FormCheck.Proofs.SchemaDocuments
import FormCheck.Proofs.FieldMaps
import FormCheck.Proofs.GatheredErrors
import FormCheck.Proofs.ErrorDocuments
import FormCheck.Proofs.FieldOrder
import FormCheck.Proofs.Reports
import FormCheck.Proofs.Runs
import FormCheck.Proofs.SingleValues
import FormCheck.Proofs.Settings
import FormCheck.Proofs.SettingsInForce
import FormCheck.Proofs.HelpPages
import FormCheck.Proofs.Colors
import FormCheck.Proofs.RegexLanguages
import FormCheck.Proofs.EmailAddresses
import FormCheck.Proofs.EmailExpressions
import FormCheck.Proofs.EmailGrammars
import FormCheck.Proofs.PatternDifferences
import FormCheck.Proofs.ReducedRules
import FormCheck.Proofs.Rounding
import FormCheck.Proofs.ShortestDigits
import FormCheck.Proofs.NumberNotation
import FormCheck.Proofs.NumberReading
import FormCheck.Proofs.Trimming
import FormCheck.Proofs.BrowserTrimming
import FormCheck.Proofs.CoercedScalars
import FormCheck.Proofs.ObjectMembers
import FormCheck.Proofs.ObjectSchemas
import FormCheck.Proofs.SchemaEdits
import FormCheck.Proofs.RoundingErrors
import FormCheck.Proofs.SeventeenDigits
import FormCheck.Proofs.NumeralDigits
import FormCheck.Proofs.ScaledNumbers
import FormCheck.Proofs.ValueDocuments
import FormCheck.Proofs.FlatRecords
import FormCheck.Proofs.ReportedEvents
import FormCheck.Proofs.TomlDocuments
import FormCheck.Proofs.SettingsOverrides
import FormCheck.Proofs.SchemaFiles
